/-
# Limits prune the tree

The limits of reading only cut the whole tree of a message: everything below a depth goes
first, and then everything after a number of parts in the order of the text.  What is left
keeps its header, its content type and its body.

Key constructions:
* `Entity.outline`: the entities of a tree in the order of the text, with their depths.
* `Entity.cutBelow`, `Entity.keepFirst`: the two ways of pruning.
* `Entity.ReadsAs`: what reading with limits gives, and how it counts.
-/
import ImapMessage.Proofs.Entity.Unlimited

namespace ImapMessage

namespace Entity

/-! ## Trees in the order of the text -/

mutual

/-- How many entities there are below an entity. -/
def descendants : Entity → Nat
  | .leaf _ => 0
  | .multipart _ parts => countAll parts

/-- How many entities there are in some trees. -/
def countAll : List Entity → Nat
  | [] => 0
  | e :: es => descendants e + 1 + countAll es

end

mutual

/-- The entities of a tree in the order of the text, each after its depth; the root is at
`depth`. -/
def outline (depth : Nat) : Entity → List (Nat × Content)
  | .leaf c => [(depth, c)]
  | .multipart c parts => (depth, c) :: outlineAll (depth + 1) parts

/-- The entities of some trees in the order of the text; the roots are at `depth`. -/
def outlineAll (depth : Nat) : List Entity → List (Nat × Content)
  | [] => []
  | e :: es => outline depth e ++ outlineAll depth es

end

/-- No entity of a tree is deeper than `levels`. -/
def NestsWithin (levels : Nat) (e : Entity) : Prop :=
  ∀ x ∈ outline 0 e, x.1 ≤ levels

/-- The outline of an entity begins with the entity. -/
theorem outline_ofParts (depth : Nat) (c : Content) (parts : List Entity) :
    outline depth (ofParts c parts) = (depth, c) :: outlineAll (depth + 1) parts := by
  cases parts <;> rfl

theorem descendants_ofParts (c : Content) (parts : List Entity) :
    descendants (ofParts c parts) = countAll parts := by
  cases parts <;> rfl

/-- An entity with parts is no leaf. -/
theorem ofParts_of_ne_nil {parts : List Entity} (c : Content) (h : parts ≠ []) :
    ofParts c parts = .multipart c parts := by
  cases parts with
  | nil => exact absurd rfl h
  | cons e es => rfl

theorem content_ofParts (c : Content) (parts : List Entity) : (ofParts c parts).content = c := by
  cases parts <;> rfl

theorem length_outlineAll {depth : Nat} {parts : List Entity}
    (h : ∀ part ∈ parts, (outline depth part).length = part.descendants + 1) :
    (outlineAll depth parts).length = countAll parts := by
  induction parts with
  | nil => rfl
  | cons e es ih =>
    rw [outlineAll, countAll, List.length_append, h e List.mem_cons_self,
      ih fun part hpart => h part (List.mem_cons_of_mem e hpart)]

/-- An outline lists an entity and everything below it. -/
theorem length_outline (depth : Nat) (e : Entity) :
    (outline depth e).length = e.descendants + 1 := by
  induction e using inductionOn generalizing depth with
  | leaf c => rfl
  | multipart c parts ih =>
    rw [outline, descendants, List.length_cons,
      length_outlineAll fun part hpart => ih part hpart (depth + 1)]

theorem mem_outlineAll {depth : Nat} {parts : List Entity} {x : Nat × Content} :
    x ∈ outlineAll depth parts ↔ ∃ part ∈ parts, x ∈ outline depth part := by
  induction parts with
  | nil => simp [outlineAll]
  | cons e es ih => simp [outlineAll, ih]

theorem root_mem_outline (depth : Nat) (e : Entity) : (depth, e.content) ∈ outline depth e := by
  cases e <;> exact List.mem_cons_self

/-- Nothing in a tree is above its root. -/
theorem le_of_mem_outline {depth : Nat} {e : Entity} {x : Nat × Content}
    (h : x ∈ outline depth e) : depth ≤ x.1 := by
  induction e using inductionOn generalizing depth with
  | leaf c =>
    rw [List.mem_singleton.mp h]
  | multipart c parts ih =>
    rcases List.mem_cons.mp h with rfl | h
    · exact Nat.le_refl _
    · obtain ⟨part, hpart, hx⟩ := mem_outlineAll.mp h
      exact (Nat.le_succ depth).trans (ih part hpart hx)

/-! ## Cutting below a depth -/

/-- A tree without what is more than `levels` deep; an entity at that depth has no parts. -/
def cutBelow : (levels : Nat) → Entity → Entity
  | 0, e => .leaf e.content
  | _ + 1, .leaf c => .leaf c
  | levels + 1, .multipart c parts => .multipart c (parts.map (cutBelow levels))

theorem cutBelow_ofParts (levels : Nat) (c : Content) (parts : List Entity) :
    cutBelow (levels + 1) (ofParts c parts) = ofParts c (parts.map (cutBelow levels)) := by
  cases parts <;> rfl

theorem content_cutBelow (levels : Nat) (e : Entity) : (cutBelow levels e).content = e.content := by
  cases levels with
  | zero => rfl
  | succ levels => cases e <;> rfl

/-- Cutting to the root alone leaves of an outline its first line. -/
theorem filter_outline_root (depth : Nat) (e : Entity) :
    ((outline depth e).filter fun x => x.1 ≤ depth) = [(depth, e.content)] := by
  cases e with
  | leaf c => simp [outline, content]
  | multipart c parts =>
    have hbelow : ∀ x ∈ outlineAll (depth + 1) parts, ¬decide (x.1 ≤ depth) = true := by
      intro x hx
      obtain ⟨part, -, hx⟩ := mem_outlineAll.mp hx
      have := le_of_mem_outline hx
      rw [decide_eq_true_iff]
      omega
    rw [outline, List.filter_cons_of_pos (by simp), List.filter_eq_nil_iff.mpr hbelow, content]

/-- Cutting removes from an outline what is too deep, and nothing else. -/
theorem outline_cutBelow (levels depth : Nat) (e : Entity) :
    outline depth (cutBelow levels e)
      = (outline depth e).filter fun x => x.1 ≤ depth + levels := by
  induction levels generalizing depth e with
  | zero => rw [cutBelow, outline, Nat.add_zero, filter_outline_root]
  | succ levels ih =>
    -- The parts are one deeper than their parent and may nest one level less.
    have hparts : ∀ parts, outlineAll (depth + 1) (parts.map (cutBelow levels))
        = (outlineAll (depth + 1) parts).filter fun x => x.1 ≤ depth + (levels + 1) := by
      intro parts
      induction parts with
      | nil => rfl
      | cons e es ihes =>
        rw [List.map_cons, outlineAll, outlineAll, List.filter_append, ihes, ih,
          Nat.add_right_comm depth 1 levels, Nat.add_assoc depth levels 1]
    cases e with
    | leaf c => simp [cutBelow, outline]
    | multipart c parts =>
      rw [cutBelow, outline, outline, hparts, List.filter_cons_of_pos (by simp)]

theorem nestsWithin_cutBelow (levels : Nat) (e : Entity) :
    NestsWithin levels (cutBelow levels e) := by
  intro x hx
  rw [outline_cutBelow, Nat.zero_add] at hx
  simpa using List.of_mem_filter hx

/-! ## Keeping the first parts -/

mutual

/-- An entity with the first `n` of the entities below it; without any, it has no parts. -/
def keepFirst (n : Nat) : Entity → Entity
  | .leaf c => .leaf c
  | .multipart c parts => ofParts c (keepFirstAll n parts)

/-- The first `n` entities of some trees. -/
def keepFirstAll : Nat → List Entity → List Entity
  | _, [] => []
  | 0, _ :: _ => []
  | n + 1, e :: es => keepFirst n e :: keepFirstAll (n - e.descendants) es

end

theorem keepFirst_ofParts (n : Nat) (c : Content) (parts : List Entity) :
    keepFirst n (ofParts c parts) = ofParts c (keepFirstAll n parts) := by
  cases parts with
  | nil => cases n <;> rfl
  | cons e es => rfl

theorem content_keepFirst (n : Nat) (e : Entity) : (keepFirst n e).content = e.content := by
  cases e with
  | leaf c => rw [keepFirst]
  | multipart c parts => rw [keepFirst, content_ofParts, content]

theorem outlineAll_keepFirstAll {parts : List Entity}
    (h : ∀ part ∈ parts, ∀ n depth,
      outline depth (keepFirst n part) = (outline depth part).take (n + 1))
    (n depth : Nat) :
    outlineAll depth (keepFirstAll n parts) = (outlineAll depth parts).take n := by
  induction parts generalizing n with
  | nil => rw [keepFirstAll, outlineAll, List.take_nil]
  | cons e es ih =>
    cases n with
    | zero => rw [keepFirstAll, outlineAll, List.take_zero]
    | succ n =>
      rw [keepFirstAll, outlineAll, outlineAll, h e List.mem_cons_self,
        ih (fun part hpart => h part (List.mem_cons_of_mem e hpart)), List.take_append,
        length_outline, Nat.add_sub_add_right]

/-- Keeping the first parts keeps the beginning of an outline. -/
theorem outline_keepFirst (n depth : Nat) (e : Entity) :
    outline depth (keepFirst n e) = (outline depth e).take (n + 1) := by
  induction e using inductionOn generalizing n depth with
  | leaf c => simp [keepFirst, outline]
  | multipart c parts ih =>
    rw [keepFirst, outline_ofParts, outline, List.take_succ_cons, outlineAll_keepFirstAll ih]

theorem descendants_keepFirst (n : Nat) (e : Entity) :
    (keepFirst n e).descendants = min n e.descendants := by
  have hlength := congrArg List.length (outline_keepFirst n 0 e)
  rw [List.length_take, length_outline, length_outline] at hlength
  omega

theorem nestsWithin_keepFirst {levels : Nat} {e : Entity} (n : Nat) (h : NestsWithin levels e) :
    NestsWithin levels (keepFirst n e) := by
  intro x hx
  rw [outline_keepFirst] at hx
  exact h x (List.mem_of_mem_take hx)

/-! ## Trees within the limits -/

/-- No entity of a tree has an empty sequence of parts. -/
inductive IsPopulated : Entity → Prop where
  | leaf (c : Content) : IsPopulated (.leaf c)
  | multipart (c : Content) {parts : List Entity} (hne : parts ≠ [])
      (hparts : ∀ part ∈ parts, IsPopulated part) : IsPopulated (.multipart c parts)

theorem isPopulated_ofParts (c : Content) {parts : List Entity}
    (h : ∀ part ∈ parts, IsPopulated part) : IsPopulated (ofParts c parts) := by
  cases parts with
  | nil => exact .leaf c
  | cons e es => exact .multipart c (List.cons_ne_nil e es) h

theorem isPopulated_wholeTree (c : Content) : IsPopulated (wholeTree c) := by
  induction c using wholeTree.induct with
  | case1 c ih =>
    rw [wholeTree_eq]
    apply isPopulated_ofParts
    intro part hpart
    obtain ⟨raw, hraw, rfl⟩ := List.mem_map.mp hpart
    exact ih ⟨raw, hraw⟩

/-- A tree that does not nest too deep stays as it is. -/
theorem cutBelow_eq_self {levels depth : Nat} {e : Entity} (he : IsPopulated e)
    (h : ∀ x ∈ outline depth e, x.1 ≤ depth + levels) : cutBelow levels e = e := by
  induction he generalizing levels depth with
  | leaf c => cases levels <;> rfl
  | multipart c hne hparts ih =>
    rename_i parts
    have hbelow : ∀ part ∈ parts, ∀ x ∈ outline (depth + 1) part, x.1 ≤ depth + levels :=
      fun part hpart x hx => h x (List.mem_cons_of_mem _ (mem_outlineAll.mpr ⟨part, hpart, hx⟩))
    cases levels with
    | zero =>
      -- The root of a part would already be too deep.
      obtain ⟨part, hpart⟩ := List.exists_mem_of_ne_nil parts hne
      have : depth + 1 ≤ depth := hbelow part hpart _ (root_mem_outline (depth + 1) part)
      omega
    | succ levels =>
      have hmap : parts.map (cutBelow levels) = parts := by
        refine (List.map_congr_left fun part hpart => ?_).trans (List.map_id parts)
        have hpart' : ∀ x ∈ outline (depth + 1) part, x.1 ≤ depth + 1 + levels := by
          intro x hx
          have := hbelow part hpart x hx
          omega
        exact ih part hpart hpart'
      rw [cutBelow, hmap]

theorem isPopulated_cutBelow {e : Entity} (he : IsPopulated e) (levels : Nat) :
    IsPopulated (cutBelow levels e) := by
  induction he generalizing levels with
  | leaf c => cases levels <;> exact .leaf c
  | multipart c hne hparts ih =>
    rename_i parts
    cases levels with
    | zero => exact .leaf c
    | succ levels =>
      refine .multipart c (by simpa using hne) ?_
      intro part hpart
      obtain ⟨part', hpart', rfl⟩ := List.mem_map.mp hpart
      exact ih part' hpart' levels

theorem keepFirstAll_eq_self {parts : List Entity}
    (h : ∀ part ∈ parts, ∀ n, part.descendants ≤ n → keepFirst n part = part) {n : Nat}
    (hn : countAll parts ≤ n) : keepFirstAll n parts = parts := by
  induction parts generalizing n with
  | nil => rw [keepFirstAll]
  | cons e es ih =>
    rw [countAll] at hn
    obtain ⟨n, rfl⟩ : ∃ m, n = m + 1 := ⟨n - 1, by omega⟩
    rw [keepFirstAll, h e List.mem_cons_self n (by omega),
      ih (fun part hpart => h part (List.mem_cons_of_mem e hpart)) (by omega)]

/-- A tree with few enough parts stays as it is. -/
theorem keepFirst_eq_self {n : Nat} {e : Entity} (he : IsPopulated e) (h : e.descendants ≤ n) :
    keepFirst n e = e := by
  induction he generalizing n with
  | leaf c => rfl
  | multipart c hne hparts ih =>
    rw [keepFirst, keepFirstAll_eq_self (fun part hpart n hn => ih part hpart hn) h,
      ofParts_of_ne_nil c hne]

/-- Trees of which few enough entities are left when each is cut by itself are left as they are when
they are cut together. -/
theorem keepFirstAll_of_countAll_le {parts : List Entity} (h : ∀ part ∈ parts, IsPopulated part)
    {n m : Nat} (hm : m ≤ n) (hcount : countAll (parts.map (keepFirst n)) ≤ m) :
    keepFirstAll m parts = parts.map (keepFirst n) := by
  induction parts generalizing m with
  | nil => rw [keepFirstAll, List.map_nil]
  | cons e es ih =>
    rw [List.map_cons, countAll, descendants_keepFirst] at hcount
    obtain ⟨m, rfl⟩ : ∃ m', m = m' + 1 := ⟨m - 1, by omega⟩
    -- Nothing is cut from `e`, since it would leave more than there is room for.
    have he := h e List.mem_cons_self
    rw [keepFirstAll, List.map_cons, keepFirst_eq_self he (by omega),
      keepFirst_eq_self he (by omega),
      ih (fun part hpart => h part (List.mem_cons_of_mem e hpart)) (by omega) (by omega)]

/-! ## Reading with limits -/

/-- Reading gives of a whole tree as many parts as the limit still allows, and counts those that it
gives. -/
def ReadsAs (limits : Limits) (progress : Progress) (whole : Entity)
    (result : Entity × Progress) : Prop :=
  result.1 = keepFirst (limits.maxParts - progress.parts) whole
    ∧ result.2.parts = progress.parts + result.1.descendants

/-- A leaf is read as it is, whatever the limit. -/
theorem readsAs_leaf (limits : Limits) {progress progress' : Progress} (c : Content)
    (h : progress'.parts = progress.parts) :
    ReadsAs limits progress (.leaf c) (.leaf c, progress') := by
  refine ⟨?_, ?_⟩
  · rw [keepFirst]
  · rw [descendants, h, Nat.add_zero]

/-- If every part is read up to the limit, then so are some parts one after another. -/
theorem parseParts_readsAs {limits : Limits} {parse : Bytes → Progress → Entity × Progress}
    {whole : Bytes → Entity} {raws : List Bytes}
    (h : ∀ raw ∈ raws, ∀ progress, ReadsAs limits progress (whole raw) (parse raw progress))
    (progress : Progress) :
    (parseParts limits parse raws progress).1
        = keepFirstAll (limits.maxParts - progress.parts) (raws.map whole)
      ∧ (parseParts limits parse raws progress).2.parts
        = progress.parts + countAll (parseParts limits parse raws progress).1 := by
  induction raws generalizing progress with
  | nil => exact ⟨by rw [parseParts, List.map_nil, keepFirstAll], rfl⟩
  | cons raw raws ih =>
    rw [parseParts, List.map_cons]
    split
    · -- The count has reached the limit: nothing more is read.
      rename_i hfull
      rw [Nat.sub_eq_zero_of_le hfull]
      exact ⟨rfl, rfl⟩
    · rename_i hroom
      obtain ⟨n, hn⟩ : ∃ n, limits.maxParts - progress.parts = n + 1 :=
        ⟨limits.maxParts - progress.parts - 1, by omega⟩
      have hn' : limits.maxParts - progress.begin.parts = n := by
        rw [Progress.parts_begin]
        omega
      obtain ⟨htree, hcount⟩ := h raw List.mem_cons_self progress.begin
      rw [hn'] at htree
      have hleft : limits.maxParts - (parse raw progress.begin).2.parts
          = n - (whole raw).descendants := by
        rw [hcount, htree, descendants_keepFirst]
        omega
      obtain ⟨htrees, hcounts⟩ :=
        ih (fun raw' hraw' => h raw' (List.mem_cons_of_mem raw hraw')) (parse raw progress.begin).2
      rw [hleft] at htrees
      refine ⟨?_, ?_⟩
      · dsimp only
        rw [hn, keepFirstAll, htree, htrees]
      · dsimp only
        rw [hcounts, hcount, countAll, Progress.parts_begin]
        omega

section

variable (limits : Limits) (reader? : Option PartReader) {assumed : ContentType} {raw : Bytes}
  (progress : Progress)

/-- Without a boundary an entity is a leaf. -/
theorem parseEntity_of_no_boundary (h : boundary? (contentRead assumed raw).contentType = none) :
    parseEntity limits reader? assumed raw progress
      = (.leaf (contentRead assumed raw), progress.skip (HeaderBlock.read raw).skipped) := by
  unfold contentRead at h ⊢
  unfold parseEntity
  simp only [h]

/-- Without a reader of parts an entity with a boundary is a leaf, with a warning. -/
theorem parseEntity_none {boundary : Bytes}
    (h : boundary? (contentRead assumed raw).contentType = some boundary) :
    parseEntity limits none assumed raw progress
      = (.leaf (contentRead assumed raw),
        (progress.skip (HeaderBlock.read raw).skipped).warn (.tooDeep limits.maxRecursion)) := by
  unfold contentRead at h ⊢
  unfold parseEntity
  simp only [h]

/-- With a reader of parts the parts of an entity are read one by one. -/
theorem parseEntity_some (reader : PartReader) :
    parseEntity limits (some reader) assumed raw progress
      = (parseParts limits (reader (partDefault (contentRead assumed raw).contentType))
          (rawParts (contentRead assumed raw)) (progress.skip (HeaderBlock.read raw).skipped)).map
        (ofParts (contentRead assumed raw)) id := by
  cases h : boundary? (contentRead assumed raw).contentType with
  | none =>
    rw [parseEntity_of_no_boundary limits (some reader) progress h, rawParts, h, parseParts]
    rfl
  | some boundary =>
    rw [rawParts, h]
    unfold contentRead at h ⊢
    unfold parseEntity
    simp only [h, Prod.map, id]

end

/-- Reading with limits gives the whole tree without what is too deep, up to the limit of
parts. -/
theorem parseAt_readsAs (limits : Limits) (levels : Nat) (assumed : ContentType) (raw : Bytes)
    (progress : Progress) :
    ReadsAs limits progress (cutBelow levels (wholeTree (contentRead assumed raw)))
      (parseAt limits levels assumed raw progress) := by
  induction levels generalizing assumed raw progress with
  | zero =>
    rw [parseAt_zero, cutBelow, wholeTree_eq, content_ofParts]
    cases hb : boundary? (contentRead assumed raw).contentType with
    | none =>
      rw [parseEntity_of_no_boundary limits none progress hb]
      exact readsAs_leaf limits _ (Progress.parts_skip progress _)
    | some boundary =>
      rw [parseEntity_none limits progress hb]
      exact readsAs_leaf limits _ (by rw [Progress.parts_warn, Progress.parts_skip])
  | succ levels ih =>
    rw [parseAt_succ, parseEntity_some, wholeTree_eq, cutBelow_ofParts, List.map_map]
    generalize contentRead assumed raw = c
    -- The parts are read as `ih` says, from where the header of `c` has been skipped.
    obtain ⟨htrees, hcounts⟩ := parseParts_readsAs
      (fun raw' (_ : raw' ∈ rawParts c) progress' => ih (partDefault c.contentType) raw' progress')
      (progress.skip (HeaderBlock.read raw).skipped)
    rw [Progress.parts_skip] at htrees hcounts
    refine ⟨?_, ?_⟩
    · rw [Prod.map_fst, htrees, keepFirst_ofParts]
      rfl
    · rw [Prod.map_fst, Prod.map_snd, id_eq, hcounts, descendants_ofParts]

/-! ## Reading without warnings -/

/-- If the parts that are read without a warning are whole trees, then so are all of them. -/
theorem parseParts_of_no_warnings {limits : Limits}
    {parse : Bytes → Progress → Entity × Progress} {whole : Bytes → Entity} {raws : List Bytes}
    (h : ∀ raw ∈ raws, ∀ progress, (parse raw progress).2.warnings = [] →
      progress.warnings = [] ∧ (parse raw progress).1 = whole raw)
    {progress : Progress} (hquiet : (parseParts limits parse raws progress).2.warnings = []) :
    progress.warnings = [] ∧ (parseParts limits parse raws progress).1 = raws.map whole := by
  induction raws generalizing progress with
  | nil => exact ⟨hquiet, rfl⟩
  | cons raw raws ih =>
    rw [parseParts] at hquiet ⊢
    split at hquiet
    · rw [Progress.warnings_warn] at hquiet
      exact absurd hquiet (List.append_ne_nil_of_right_ne_nil _ (List.cons_ne_nil _ _))
    · rename_i hroom
      obtain ⟨hquiet', htrees⟩ :=
        ih (fun raw' hraw' => h raw' (List.mem_cons_of_mem raw hraw')) hquiet
      obtain ⟨hbegin, htree⟩ := h raw List.mem_cons_self progress.begin hquiet'
      rw [if_neg hroom, List.map_cons]
      exact ⟨hbegin, by dsimp only; rw [htree, htrees]⟩

/-- What is read without a warning is the whole tree. -/
theorem parseAt_of_no_warnings (limits : Limits) (levels : Nat) (assumed : ContentType)
    (raw : Bytes) (progress : Progress)
    (h : (parseAt limits levels assumed raw progress).2.warnings = []) :
    progress.warnings = []
      ∧ (parseAt limits levels assumed raw progress).1 = wholeTree (contentRead assumed raw) := by
  induction levels generalizing assumed raw progress with
  | zero =>
    rw [parseAt_zero] at h ⊢
    cases hb : boundary? (contentRead assumed raw).contentType with
    | none =>
      rw [parseEntity_of_no_boundary limits none progress hb] at h
      rw [parseEntity_of_no_boundary limits none progress hb, wholeTree_of_no_boundary hb]
      exact ⟨h, rfl⟩
    | some boundary =>
      rw [parseEntity_none limits progress hb, Progress.warnings_warn] at h
      exact absurd h (List.append_ne_nil_of_right_ne_nil _ (List.cons_ne_nil _ _))
  | succ levels ih =>
    rw [parseAt_succ, parseEntity_some, Prod.map_snd, id_eq] at h
    rw [parseAt_succ, parseEntity_some, Prod.map_fst, wholeTree_eq]
    generalize contentRead assumed raw = c at h ⊢
    obtain ⟨hquiet, htrees⟩ := parseParts_of_no_warnings
      (fun raw' (_ : raw' ∈ rawParts c) progress' => ih (partDefault c.contentType) raw' progress')
      h
    exact ⟨hquiet, by rw [htrees]⟩

/-! ## Messages -/

/-- A message read with limits is the whole message without what is too deep, and of that the first
parts. -/
theorem parse_eq_keepFirst (limits : Limits) (raw : Bytes) :
    parse limits raw
      = keepFirst limits.maxParts (cutBelow limits.maxRecursion (parseFully raw)) :=
  (parseAt_readsAs limits limits.maxRecursion .plain raw {}).1

/-- Limits do not change header, content type and body of a message. -/
theorem content_parse (limits : Limits) (raw : Bytes) :
    (parse limits raw).content = contentRead .plain raw := by
  rw [parse_eq_keepFirst, content_keepFirst, content_cutBelow, parseFully, wholeTree_eq,
    content_ofParts]

/-- A message that keeps the limits is read as a whole. -/
theorem parse_eq_parseFully {limits : Limits} {raw : Bytes}
    (hdepth : NestsWithin limits.maxRecursion (parseFully raw))
    (hcount : (parseFully raw).descendants ≤ limits.maxParts) :
    parse limits raw = parseFully raw := by
  have hpopulated : IsPopulated (parseFully raw) := isPopulated_wholeTree _
  have hcut : cutBelow limits.maxRecursion (parseFully raw) = parseFully raw := by
    apply cutBelow_eq_self hpopulated
    intro x hx
    rw [Nat.zero_add]
    exact hdepth x hx
  rw [parse_eq_keepFirst, hcut, keepFirst_eq_self hpopulated hcount]

/-- A message whose parts are few enough is read part by part, each with one level less. -/
theorem parse_of_rawParts {raw : Bytes} {c : Content} {levels maxParts : Nat}
    (hc : contentRead .plain raw = c) (hdefault : partDefault c.contentType = .plain)
    (hcount : countAll ((rawParts c).map (parse ⟨levels, maxParts⟩)) ≤ maxParts) :
    parse ⟨levels + 1, maxParts⟩ raw = ofParts c ((rawParts c).map (parse ⟨levels, maxParts⟩)) := by
  have hparse : (rawParts c).map (parse ⟨levels, maxParts⟩)
      = ((rawParts c).map fun part => cutBelow levels (parseFully part)).map
        (keepFirst maxParts) := by
    rw [List.map_map]
    exact List.map_congr_left fun part _ => parse_eq_keepFirst ⟨levels, maxParts⟩ part
  have hpopulated : ∀ e ∈ (rawParts c).map fun part => cutBelow levels (parseFully part),
      IsPopulated e := by
    intro e he
    obtain ⟨part, -, rfl⟩ := List.mem_map.mp he
    exact isPopulated_cutBelow (isPopulated_wholeTree _) levels
  rw [hparse] at hcount
  rw [hparse, ← keepFirstAll_of_countAll_le hpopulated (Nat.le_refl maxParts) hcount,
    parse_eq_keepFirst, parseFully, hc, wholeTree_eq, cutBelow_ofParts, keepFirst_ofParts, hdefault,
    List.map_map]
  rfl

/-- A message without raw parts is a leaf. -/
theorem parse_of_rawParts_eq_nil {raw : Bytes} {c : Content} (hc : contentRead .plain raw = c)
    (hparts : rawParts c = []) (limits : Limits) : parse limits raw = .leaf c := by
  have hwhole : parseFully raw = .leaf c := by
    rw [parseFully, hc, wholeTree_eq, hparts]
    rfl
  rw [parse_eq_keepFirst, hwhole]
  cases limits.maxRecursion <;> rw [cutBelow, keepFirst]
  rfl

/-- A message that nests one level less than the limit is read in the same way with one level
less. -/
theorem parse_of_nestsWithin {levels maxParts : Nat} {raw : Bytes}
    (h : NestsWithin levels (parseFully raw)) :
    parse ⟨levels, maxParts⟩ raw = parse ⟨levels + 1, maxParts⟩ raw := by
  have hcut : ∀ levels', levels ≤ levels' →
      cutBelow levels' (parseFully raw) = parseFully raw := by
    intro levels' hle
    apply cutBelow_eq_self (isPopulated_wholeTree _)
    intro x hx
    rw [Nat.zero_add]
    exact (h x hx).trans hle
  rw [parse_eq_keepFirst, parse_eq_keepFirst, hcut levels (Nat.le_refl _),
    hcut (levels + 1) (Nat.le_succ _)]

/-- A message that is read without a warning is read as a whole. -/
theorem parse_of_no_warnings {limits : Limits} {raw : Bytes}
    (h : (parseWith limits raw).2.warnings = []) : parse limits raw = parseFully raw :=
  (parseAt_of_no_warnings limits limits.maxRecursion .plain raw {} h).2

theorem descendants_parse_le (limits : Limits) (raw : Bytes) :
    (parse limits raw).descendants ≤ limits.maxParts := by
  rw [parse_eq_keepFirst, descendants_keepFirst]
  exact Nat.min_le_left _ _

theorem nestsWithin_parse (limits : Limits) (raw : Bytes) :
    NestsWithin limits.maxRecursion (parse limits raw) := by
  rw [parse_eq_keepFirst]
  exact nestsWithin_keepFirst limits.maxParts (nestsWithin_cutBelow limits.maxRecursion _)

/-- Limits only prune the tree of a message.  They cut everything below `maxRecursion` and keep of
what is left the first `maxParts` parts in the order of the text, with their headers, content types
and bodies.  A message within the limits is read as a whole, and if nothing is warned about, then
no larger limits give another tree. -/
theorem parse_eq_pruned (limits : Limits) (raw : Bytes) :
    parse limits raw = keepFirst limits.maxParts (cutBelow limits.maxRecursion (parseFully raw))
      ∧ outline 0 (parse limits raw)
        = ((outline 0 (parseFully raw)).filter fun x => x.1 ≤ limits.maxRecursion).take
            (limits.maxParts + 1)
      ∧ (parse limits raw).descendants ≤ limits.maxParts
      ∧ NestsWithin limits.maxRecursion (parse limits raw)
      ∧ (NestsWithin limits.maxRecursion (parseFully raw) →
          (parseFully raw).descendants ≤ limits.maxParts → parse limits raw = parseFully raw)
      ∧ ((parseWith limits raw).2.warnings = [] → ∀ larger : Limits,
          limits.maxRecursion ≤ larger.maxRecursion → limits.maxParts ≤ larger.maxParts →
          parse larger raw = parse limits raw) := by
  refine ⟨parse_eq_keepFirst limits raw, ?_, descendants_parse_le limits raw,
    nestsWithin_parse limits raw, parse_eq_parseFully, ?_⟩
  · rw [parse_eq_keepFirst, outline_keepFirst, outline_cutBelow, Nat.zero_add]
  · intro hquiet larger hrecursion hparts
    have hwhole := parse_of_no_warnings hquiet
    -- What has been read keeps the limits, hence the whole message does, and larger limits too.
    have hdepth := nestsWithin_parse limits raw
    have hcount := descendants_parse_le limits raw
    rw [hwhole] at hdepth hcount ⊢
    exact parse_eq_parseFully (fun x hx => (hdepth x hx).trans hrecursion) (hcount.trans hparts)

/-- A message with two parts. -/
def twoParts : Bytes :=
  Utf8.encode "Content-Type: multipart/mixed; boundary=a\n\n--a\n\nx\n--a\n\ny\n--a--\n"

/-- A message with two parts is read as a whole with room for two parts, and with more room too. -/
theorem parse_eq_pruned_two_parts :
    (parseWith ⟨1, 2⟩ twoParts).2.warnings = []
      ∧ parse {} twoParts = parse ⟨1, 2⟩ twoParts
      ∧ NestsWithin 1 (parseFully twoParts)
      ∧ (parseFully twoParts).descendants = 2
      ∧ parse ⟨1, 2⟩ twoParts = parseFully twoParts := by
  obtain ⟨-, -, -, -, hfull, hlarger⟩ := parse_eq_pruned ⟨1, 2⟩ twoParts
  have hquiet : (parseWith ⟨1, 2⟩ twoParts).2.warnings = [] := by decide +kernel
  have hdepth : NestsWithin 1 (parseFully twoParts) := by
    rw [← parse_of_no_warnings hquiet]
    exact nestsWithin_parse ⟨1, 2⟩ twoParts
  have hcount : (parseFully twoParts).descendants = 2 := by
    rw [← parse_of_no_warnings hquiet]
    decide +kernel
  exact ⟨hquiet, hlarger hquiet {} (by decide) (by decide), hdepth, hcount, hfull hdepth hcount.le⟩

end Entity

end ImapMessage
