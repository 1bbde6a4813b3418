/-
Lists that are related item by item.
-/
import Mathlib.Data.List.Forall2

namespace Schemata

theorem exists_forall₂_iff {R : α → β → Prop} {xs : List α} :
    (∃ ys, List.Forall₂ R xs ys) ↔ ∀ x ∈ xs, ∃ y, R x y := by
  induction xs with
  | nil => exact ⟨fun _ => by simp, fun _ => ⟨[], .nil⟩⟩
  | cons x rest ih =>
    rw [List.forall_mem_cons, ← ih]
    constructor
    · rintro ⟨ys, hys⟩
      obtain ⟨y, ys', hy, hys', rfl⟩ := List.forall₂_cons_left_iff.mp hys
      exact ⟨⟨y, hy⟩, ys', hys'⟩
    · rintro ⟨⟨y, hy⟩, ys, hys⟩
      exact ⟨y :: ys, .cons hy hys⟩

/-- Lists with the same images are related item by item. -/
theorem forall₂_of_map_eq {f : α → γ} {g : β → γ} {xs : List α} {ys : List β}
    (h : ys.map g = xs.map f) :
    List.Forall₂ (fun x y => x ∈ xs ∧ y ∈ ys ∧ g y = f x) xs ys := by
  have heq : List.Forall₂ (fun x y => f x = g y) xs ys := by
    rw [← List.forall₂_map_right_iff (f := g), ← List.forall₂_map_left_iff (f := f),
      List.forall₂_eq_eq_eq]
    exact h.symm
  refine List.forall₂_iff_zip.mpr ⟨heq.length_eq, fun {x y} hxy => ?_⟩
  obtain ⟨hx, hy⟩ := List.of_mem_zip hxy
  exact ⟨hx, hy, (List.forall₂_zip heq hxy).symm⟩

theorem map_eq_of_forall₂ {f : α → γ} {g : β → γ} {xs : List α} {ys : List β}
    (h : List.Forall₂ (fun x y => g y = f x) xs ys) : ys.map g = xs.map f := by
  induction h with
  | nil => rfl
  | cons hxy _ ih => rw [List.map_cons, List.map_cons, hxy, ih]

/-- Lists that are related to the same list are related item by item. -/
theorem forall₂_of_common {R : γ → α → Prop} {S : γ → β → Prop} {T : α → β → Prop} {zs : List γ}
    {xs : List α} {ys : List β} (hxs : List.Forall₂ R zs xs) (hys : List.Forall₂ S zs ys)
    (h : ∀ z x y, R z x → S z y → T x y) : List.Forall₂ T xs ys := by
  induction hxs generalizing ys with
  | nil =>
    cases hys
    exact .nil
  | cons hx _ ih =>
    cases hys with
    | cons hy hys => exact .cons (h _ _ _ hx hy) (ih hys)

section

variable {R : α → β → Prop} {xs : List α} {ys : List β}

theorem exists_append_of_forall₂ {xs' : List α} (h : List.Forall₂ R (xs ++ xs') ys) :
    ∃ us vs, List.Forall₂ R xs us ∧ List.Forall₂ R xs' vs ∧ ys = us ++ vs := by
  induction xs generalizing ys with
  | nil => exact ⟨[], ys, .nil, h, rfl⟩
  | cons x rest ih =>
    obtain ⟨y, ys', hy, hys, rfl⟩ := List.forall₂_cons_left_iff.mp h
    obtain ⟨us, vs, hus, hvs, rfl⟩ := ih hys
    exact ⟨y :: us, vs, .cons hy hus, hvs, rfl⟩

/-- What is related to the images of several items falls into a block for each of them. -/
theorem exists_flatten_of_forall₂ {S : β → γ → Prop} {f : α → List β} {zs : List γ}
    (h : List.Forall₂ S (xs.flatMap f) zs) :
    ∃ blocks, zs = blocks.flatten ∧
      List.Forall₂ (fun x block => List.Forall₂ S (f x) block) xs blocks := by
  induction xs generalizing zs with
  | nil =>
    rw [List.flatMap_nil] at h
    rw [List.forall₂_nil_left_iff.mp h]
    exact ⟨[], rfl, .nil⟩
  | cons x rest ih =>
    rw [List.flatMap_cons] at h
    obtain ⟨block, zs', hblock, hzs', rfl⟩ := exists_append_of_forall₂ h
    obtain ⟨blocks, rfl, hblocks⟩ := ih hzs'
    exact ⟨block :: blocks, rfl, .cons hblock hblocks⟩

theorem exists_left_of_forall₂ (h : List.Forall₂ R xs ys) : ∀ y ∈ ys, ∃ x ∈ xs, R x y := by
  induction h with
  | nil => exact fun _ hy => by cases hy
  | @cons x y xs ys hxy _ ih =>
    refine List.forall_mem_cons.mpr ⟨⟨x, List.mem_cons_self, hxy⟩, fun z hz => ?_⟩
    obtain ⟨w, hw, hwz⟩ := ih z hz
    exact ⟨w, List.mem_cons_of_mem x hw, hwz⟩

theorem exists_right_of_forall₂ (h : List.Forall₂ R xs ys) : ∀ x ∈ xs, ∃ y ∈ ys, R x y :=
  exists_left_of_forall₂ h.flip

theorem exists_getElem?_of_forall₂ (h : List.Forall₂ R xs ys) {i : Nat} {x : α}
    (hx : xs[i]? = some x) : ∃ y, ys[i]? = some y ∧ R x y := by
  induction h generalizing i with
  | nil => cases hx
  | cons hxy _ ih =>
    cases i with
    | zero =>
      cases hx
      exact ⟨_, rfl, hxy⟩
    | succ i => exact ih hx

end

end Schemata
