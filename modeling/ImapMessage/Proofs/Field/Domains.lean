/-
# Domains that are read

A condition that holds of everything a reader may read is carried on by the ways to put readers
together.  In this way the domains of an address list have no empty words, so that a domain is empty
as a text only if there is none.

Key constructions:
* `Reader.Yields`: a condition on all that a reader may read.
* `AddrSpec.HasWords`: a domain without empty words.
* `Address.hasWords_of_parseList`: the domains of an address list.
-/
import ImapMessage.Display
import ImapMessage.Field.Address

namespace ImapMessage

/-! ## What readers yield -/

namespace Reader

variable {α : Type} {p q : Reader α} {P : α → Prop}

/-- Whatever is read meets a condition. -/
def Yields (p : Reader α) (P : α → Prop) : Prop :=
  ∀ s a rest, p s = some (a, rest) → P a

theorem Yields.orElse (hp : Yields p P) (hq : Yields q P) : Yields (orElse p q) P := by
  intro s a rest h
  rcases eq_some_of_orElse h with h | h
  · exact hp s a rest h
  · exact hq s a rest h

/-- A list that may be missing. -/
theorem Yields.optional {p : Reader (List α)} (hp : Yields p fun as => ∀ a ∈ as, P a) (s : Bytes) :
    ∀ a ∈ (optional p s).1.getD [], P a := by
  unfold Reader.optional
  split
  · rename_i as rest h
    exact hp s as rest h
  · exact List.forall_mem_nil _

theorem Yields.many (hp : Yields p P) (s : Bytes) : ∀ a ∈ (many p s).1, P a := by
  fun_induction Reader.many p s with
  | case1 => exact List.forall_mem_nil _
  | case2 s a rest hread _ as rest' hmany ih =>
    rw [hmany] at ih
    exact List.forall_mem_cons.mpr ⟨hp s a rest hread, ih⟩
  | case3 => exact List.forall_mem_nil _

theorem Yields.after (hp : Yields p P) (sep : Reader Unit) : Yields (after sep p) P := by
  intro s a rest h
  unfold Reader.after at h
  split at h
  · cases h
  · exact hp _ a rest h

theorem Yields.sepBy1 (hp : Yields p P) (sep : Reader Unit) :
    Yields (sepBy1 sep p) fun as => ∀ a ∈ as, P a := by
  intro s as rest h
  unfold Reader.sepBy1 at h
  split at h
  · cases h
  · rename_i a s' hread
    cases h
    exact List.forall_mem_cons.mpr ⟨hp s a s' hread, (hp.after sep).many s'⟩

/-- A run is not empty. -/
theorem yields_run (p : UInt8 → Bool) : Yields (run p) fun w => w ≠ [] := by
  intro s w rest h
  unfold run at h
  split at h
  · cases h
  · rename_i hne _
    cases h
    exact hne

end Reader

/-! ## Domains -/

open Reader (Yields)

namespace AddrSpec

/-- No word of the domain is empty. -/
def HasWords (a : AddrSpec) : Prop :=
  ∀ w ∈ a.domain, w ≠ []

/-- A domain is empty as a text only if there is none. -/
theorem HasWords.dotted_eq_empty_iff {a : AddrSpec} (h : a.HasWords) :
    Display.dotted a.domain = "" ↔ a.domain = [] := by
  have hempty : ∀ s : Bytes, Utf8.decodeLossy s = "" ↔ s = [] := by
    intro s
    cases s with
    | nil => simp [Utf8.decodeLossy]
    | cons b s => simp [Utf8.decodeLossy, Utf8.scan_cons]
  rw [Display.dotted, hempty]
  cases hdomain : a.domain with
  | nil => simp
  | cons w ws =>
    have hw : w ≠ [] := h w (hdomain ▸ List.mem_cons_self)
    cases ws with
    | nil => simpa using hw
    | cons w' ws => simp [hw]

end AddrSpec

namespace Address

theorem yields_domain : Yields domain fun d => ∀ w ∈ d, w ≠ [] := by
  refine ((Reader.yields_run _).sepBy1 _).orElse fun s d rest h => ?_
  obtain ⟨⟨w, r⟩, hread, heq⟩ := Option.map_eq_some_iff.mp h
  cases heq
  -- A domain in brackets has at least these.
  unfold domainLiteral at hread
  split at hread
  · cases hread
  · split at hread
    · obtain ⟨⟨w', r'⟩, -, heq⟩ := Option.map_eq_some_iff.mp hread
      cases heq
      exact List.forall_mem_singleton.mpr (List.cons_ne_nil _ _)
    · cases hread

theorem yields_addrSpec : Yields addrSpec AddrSpec.HasWords := by
  intro s a rest h
  unfold addrSpec at h
  split at h
  · cases h
  · rename_i l s' hl
    cases h
    exact (yields_domain.after (Reader.byte '@')).optional s'

theorem yields_angle : Yields angle AddrSpec.HasWords := by
  intro s a rest h
  unfold angle at h
  split at h
  · cases h
  · split at h
    · cases h
    · rename_i a' rest' hread
      obtain ⟨_, -, heq⟩ := Option.map_eq_some_iff.mp h
      cases heq
      exact yields_addrSpec _ a rest' hread

theorem yields_mailboxReader : Yields mailboxReader fun m => m.spec.HasWords := by
  refine Yields.orElse (fun s m rest h => ?_) fun s m rest h => ?_
  · obtain ⟨⟨a, r⟩, hread, heq⟩ := Option.map_eq_some_iff.mp h
    cases heq
    exact yields_angle _ a rest hread
  · obtain ⟨⟨a, r⟩, hread, heq⟩ := Option.map_eq_some_iff.mp h
    cases heq
    exact yields_addrSpec s a rest hread

theorem yields_listOf {α : Type} {p : Reader α} {P : α → Prop} (hp : Yields p P) :
    Yields (listOf p) fun as => ∀ a ∈ as, P a := by
  intro s as rest h
  unfold listOf at h
  split at h
  · cases h
  · rename_i as' rest' hread
    cases h
    exact hp.sepBy1 commas _ as rest' hread

theorem yields_reader : Yields reader fun a => ∀ m ∈ a.mailboxes, m.spec.HasWords := by
  refine Yields.orElse (fun s a rest h => ?_) fun s a rest h => ?_
  · unfold groupReader at h
    split at h
    · cases h
    · split at h
      · cases h
      · rename_i s' _
        cases h
        exact (yields_listOf yields_mailboxReader).optional s'
  · obtain ⟨⟨m, r⟩, hread, heq⟩ := Option.map_eq_some_iff.mp h
    cases heq
    exact List.forall_mem_singleton.mpr (yields_mailboxReader s m rest hread)

/-- No domain of an address list has an empty word. -/
theorem hasWords_of_parseList {value : Bytes} {as : List Address}
    (h : parseList value = some as) : ∀ a ∈ as, ∀ m ∈ a.mailboxes, m.spec.HasWords := by
  obtain ⟨⟨as', rest⟩, hread, rfl⟩ := Option.map_eq_some_iff.mp h
  exact yields_listOf yields_reader value as' rest hread

end Address

end ImapMessage
