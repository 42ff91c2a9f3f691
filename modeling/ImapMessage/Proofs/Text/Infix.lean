/-
# Parts of texts that are put together

Texts are put together with a separator between two of them, or after each of them.  Each text is a
part of the whole, and a part of the whole that does not contain the separator is a part of one of
the texts.

Key constructions:
* `infix_append_cons_iff`: what is found on both sides of one separator.
* `append_inj_of_notMem`, `intercalate_inj`: which texts were put together.
* `infix_intercalate_iff`, `infix_flatMap_iff`: what is found in texts with separators between or
  after them.
* `bracketed_infix_iff`: what is found between brackets.
-/
import Mathlib.Data.List.Infix

namespace ImapMessage

/-! ## One separator -/

/-- What does not contain a separator is not found across it. -/
theorem infix_append_cons_iff {α : Type} {q u v : List α} {s : α} (h : s ∉ q) :
    q <:+: u ++ s :: v ↔ q <:+: u ∨ q <:+: v := by
  rw [List.infix_append_iff]
  constructor
  · rintro (hu | hv | ⟨q₁, q₂, rfl, hu, hv⟩)
    · exact .inl hu
    · rcases List.infix_cons_iff.mp hv with hprefix | hv
      · rcases List.prefix_cons_iff.mp hprefix with rfl | ⟨t, rfl, -⟩
        · exact .inl List.nil_infix
        · exact absurd List.mem_cons_self h
      · exact .inr hv
    · -- What `q` has of the second part would begin with the separator.
      rcases List.prefix_cons_iff.mp hv with rfl | ⟨t, rfl, -⟩
      · rw [List.append_nil]
        exact .inl hu.isInfix
      · exact absurd (List.mem_append_right q₁ List.mem_cons_self) h
  · rintro (hu | hv)
    · exact .inl hu
    · exact .inr (.inl (hv.trans (List.suffix_cons s v).isInfix))

/-- Between brackets that do not stand anywhere else in a text, only the whole of it is found. -/
theorem bracketed_infix_iff {α : Type} {left right : α} (hne : left ≠ right) {x y : List α}
    (hleft : left ∉ y) (hright : right ∉ y) :
    left :: (x ++ [right]) <:+: left :: (y ++ [right]) ↔ x = y := by
  constructor
  · intro h
    rcases List.infix_cons_iff.mp h with hprefix | hinfix
    · obtain ⟨rest, hrest⟩ := (List.prefix_cons_inj left).mp hprefix
      rw [List.append_assoc] at hrest
      exact ((List.append_cons_inj_of_notMem hright (by simp)).mp hrest.symm).1.symm
    · -- There is no second bracket on the left.
      have hmem := hinfix.subset List.mem_cons_self
      rw [List.mem_append, List.mem_singleton] at hmem
      exact absurd hmem (not_or.mpr ⟨hleft, hne⟩)
  · rintro rfl
    exact List.infix_rfl

/-- What comes before the first occurrence of a separator, and what begins with it. -/
theorem append_inj_of_notMem {α : Type} {a : α} {x x' y y' : List α} (hx : a ∉ x) (hx' : a ∉ x')
    (hy : ∀ b ∈ y.head?, b = a) (hy' : ∀ b ∈ y'.head?, b = a) (h : x ++ y = x' ++ y') :
    x = x' ∧ y = y' := by
  rcases List.append_eq_append_iff.mp h with ⟨t, rfl, rfl⟩ | ⟨t, rfl, rfl⟩
  · cases t with
    | nil => exact ⟨(List.append_nil x).symm, rfl⟩
    | cons b t =>
      obtain rfl := hy b rfl
      exact absurd (List.mem_append_right x List.mem_cons_self) hx'
  · cases t with
    | nil => exact ⟨List.append_nil x', rfl⟩
    | cons b t =>
      obtain rfl := hy' b rfl
      exact absurd (List.mem_append_right x' List.mem_cons_self) hx

/-! ## Separators between texts, and after them -/

theorem prefix_intercalate {α : Type} (sep x : List α) (xs : List (List α)) :
    x <+: sep.intercalate (x :: xs) := by
  cases xs with
  | nil => rw [List.intercalate_singleton]
  | cons y ys =>
    rw [List.intercalate_cons_cons, List.append_assoc]
    exact List.prefix_append x _

theorem infix_intercalate {α : Type} (sep : List α) {x : List α} {xs : List (List α)}
    (h : x ∈ xs) : x <:+: sep.intercalate xs := by
  induction xs with
  | nil => cases h
  | cons y ys ih =>
    rcases List.mem_cons.mp h with rfl | h
    · exact (prefix_intercalate sep x ys).isInfix
    · rw [List.intercalate_cons_of_ne_nil (List.ne_nil_of_mem h)]
      exact (ih h).trans (List.suffix_append _ _).isInfix

theorem mem_of_mem_intercalate {α : Type} {sep x : α} {xss : List (List α)}
    (h : x ∈ [sep].intercalate xss) : x = sep ∨ ∃ xs ∈ xss, x ∈ xs := by
  induction xss with
  | nil => cases h
  | cons xs xss ih =>
    cases xss with
    | nil =>
      rw [List.intercalate_singleton] at h
      exact .inr ⟨xs, List.mem_cons_self, h⟩
    | cons ys xss =>
      rw [List.intercalate_cons_cons, List.mem_append, List.mem_append, List.mem_singleton] at h
      rcases h with (h | h) | h
      · exact .inr ⟨xs, List.mem_cons_self, h⟩
      · exact .inl h
      · exact (ih h).imp id fun ⟨zs, hzs, hx⟩ => ⟨zs, List.mem_cons_of_mem xs hzs, hx⟩

/-- What does not contain the separator is found in texts with separators between them if it is
found in one of them. -/
theorem infix_intercalate_iff {α : Type} {q : List α} {s : α} (h : s ∉ q)
    {xss : List (List α)} (hne : xss ≠ []) :
    q <:+: [s].intercalate xss ↔ ∃ xs ∈ xss, q <:+: xs := by
  induction xss with
  | nil => exact absurd rfl hne
  | cons xs xss ih =>
    cases xss with
    | nil => simp
    | cons ys xss =>
      rw [List.intercalate_cons_cons, List.append_assoc, List.singleton_append,
        infix_append_cons_iff h, ih (List.cons_ne_nil ys xss)]
      exact (List.exists_mem_cons_iff ..).symm

/-- Texts that are not empty and do not contain the separator can be told from what they are put
together to. -/
theorem intercalate_inj {α : Type} [DecidableEq α] {s : α} {xss yss : List (List α)}
    (hx : ∀ xs ∈ xss, xs ≠ [] ∧ s ∉ xs) (hy : ∀ ys ∈ yss, ys ≠ [] ∧ s ∉ ys)
    (h : [s].intercalate xss = [s].intercalate yss) : xss = yss := by
  have hnil : ∀ zss : List (List α), (∀ zs ∈ zss, zs ≠ [] ∧ s ∉ zs) →
      [s].intercalate zss = [] → zss = [] := by
    intro zss hz hzss
    refine List.eq_nil_iff_forall_not_mem.mpr fun zs hzs => (hz zs hzs).1 ?_
    exact List.infix_nil.mp (hzss ▸ infix_intercalate [s] hzs)
  by_cases hxnil : xss = []
  · subst hxnil
    exact (hnil yss hy h.symm).symm
  · by_cases hynil : yss = []
    · subst hynil
      exact absurd (hnil xss hx h) hxnil
    · rw [← List.splitOn_intercalate s (fun xs hxs => (hx xs hxs).2) hxnil, h,
        List.splitOn_intercalate s (fun ys hys => (hy ys hys).2) hynil]

/-- What is not empty and does not contain the separator is found in texts with separators after
them if it is found in one of them. -/
theorem infix_flatMap_iff {α : Type} {q : List α} {s : α} (h : s ∉ q) (hne : q ≠ [])
    (xss : List (List α)) :
    q <:+: xss.flatMap (· ++ [s]) ↔ ∃ xs ∈ xss, q <:+: xs := by
  induction xss with
  | nil => simp [hne]
  | cons xs xss ih =>
    rw [List.flatMap_cons, List.append_assoc, List.singleton_append, infix_append_cons_iff h, ih,
      List.exists_mem_cons_iff]

end ImapMessage
