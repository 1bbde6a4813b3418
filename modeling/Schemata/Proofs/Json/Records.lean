/-
Reading records that were written.  The fields of a record are found by their names, so it does not
matter in which order the members of its objects stand.
-/
import Schemata.Json.Record
import Schemata.Proofs.Forall2

namespace Schemata
namespace Json

/-- The same value, apart from the order of members in its objects. -/
inductive Reordered : Json → Json → Prop
  | refl (v : Json) : Reordered v v
  | array {items items' : List Json} (h : List.Forall₂ Reordered items items') :
    Reordered (array items) (array items')
  | object {members ms members' : List (Option String × Json)}
    (hnames : members.map (·.1) = ms.map (·.1))
    (hvalues : List.Forall₂ Reordered (members.map (·.2)) (ms.map (·.2)))
    (hperm : ms.Perm members') : Reordered (object members) (object members')

section

variable {v : Json} {items : List Json} {members : List (Option String × Json)}

theorem forall₂_reordered_refl (items : List Json) : List.Forall₂ Reordered items items :=
  List.forall₂_same.mpr fun v _ => .refl v

theorem Reordered.exists_items (h : Reordered (.array items) v) :
    ∃ items', v = .array items' ∧ List.Forall₂ Reordered items items' := by
  cases h with
  | refl => exact ⟨items, rfl, forall₂_reordered_refl items⟩
  | array h => exact ⟨_, rfl, h⟩

theorem Reordered.exists_members (h : Reordered (.object members) v) :
    ∃ ms members' : List (Option String × Json), v = .object members' ∧
      members.map (·.1) = ms.map (·.1) ∧
      List.Forall₂ Reordered (members.map (·.2)) (ms.map (·.2)) ∧ ms.Perm members' := by
  cases h with
  | refl => exact ⟨members, members, rfl, rfl, forall₂_reordered_refl _, .refl members⟩
  | object hnames hvalues hperm => exact ⟨_, _, rfl, hnames, hvalues, hperm⟩

end

/-- One of several entries with different names is the only one of its name. -/
theorem filter_eq_singleton {entries : List (String × Json)} (h : (entries.map (·.1)).Nodup)
    {e : String × Json} (he : e ∈ entries) : entries.filter (·.1 == e.1) = [e] := by
  induction entries with
  | nil => cases he
  | cons d entries ih =>
    obtain ⟨hd, hnodup⟩ := List.nodup_cons.mp h
    have hother : ∀ e' ∈ entries, e'.1 ≠ d.1 := by
      intro e' he' heq
      exact hd (List.mem_map.mpr ⟨e', he', heq⟩)
    rcases List.mem_cons.mp he with rfl | he
    · rw [List.filter_cons_of_pos (by simp), List.filter_eq_nil_iff.mpr]
      exact fun e' he' => by simpa using hother e' he'
    · rw [List.filter_cons_of_neg, ih hnodup he]
      simpa using fun heq => hother e he heq.symm

section

variable {entries : List (String × Json)} {members : List (Option String × Json)}

theorem single?_of_perm (hnodup : (entries.map (·.1)).Nodup)
    (hperm : (entries.map fun e => (some e.1, e.2)).Perm members) {e : String × Json}
    (he : e ∈ entries) : single? members e.1 = some (some e.2) := by
  have hfilter : members.filter (·.1 == some e.1) = [(some e.1, e.2)] := by
    have hmap : (entries.map fun e => (some e.1, e.2)).filter (·.1 == some e.1) =
        [(some e.1, e.2)] := by
      rw [List.filter_map]
      show (entries.filter fun d => some d.1 == some e.1).map _ = _
      have heq : (fun d : String × Json => some d.1 == some e.1) = fun d => d.1 == e.1 := rfl
      rw [heq, filter_eq_singleton hnodup he]
      rfl
    exact List.perm_singleton.mp (hmap ▸ (hperm.filter _).symm)
  rw [single?, hfilter]

theorem mapM_of_forall₂ {f : α → Option β} {xs : List α} {ys : List β}
    (h : List.Forall₂ (fun x y => f x = some y) xs ys) : xs.mapM f = some ys := by
  induction h with
  | nil => rfl
  | cons hxy _ ih =>
    rw [List.mapM_cons, hxy, ih]
    rfl

theorem exists_entries {fields : List (String × Json)}
    (hnames : (fields.map fun f => some f.1) = members.map (·.1))
    (hvalues : List.Forall₂ Reordered (fields.map (·.2)) (members.map (·.2))) :
    ∃ entries : List (String × Json), members = (entries.map fun e => (some e.1, e.2)) ∧
      entries.map (·.1) = fields.map (·.1) ∧
      List.Forall₂ Reordered (fields.map (·.2)) (entries.map (·.2)) := by
  induction fields generalizing members with
  | nil =>
    rw [List.map_nil, eq_comm, List.map_eq_nil_iff] at hnames
    exact ⟨[], hnames, rfl, .nil⟩
  | cons f fields ih =>
    cases members with
    | nil => cases hnames
    | cons m members =>
      obtain ⟨hname, hnames⟩ := List.cons.inj hnames
      cases hvalues with
      | cons hvalue hvalues =>
        obtain ⟨entries, rfl, heq, hentries⟩ := ih hnames hvalues
        refine ⟨(f.1, m.2) :: entries, ?_, congrArg (f.1 :: ·) heq, .cons hvalue hentries⟩
        show m :: _ = (some f.1, m.2) :: _
        rw [show some f.1 = m.1 from hname]

/-- The fields of a record are found, in the order that they are asked for. -/
theorem fields?_of_reordered {names : List String} {fields : List (String × Json)} {v : Json}
    (hnodup : names.Nodup) (hfields : fields.map (·.1) = names)
    (h : Reordered (.ofFields fields) v) :
    ∃ values, fields? names v = some (values.map some) ∧
      List.Forall₂ Reordered (fields.map (·.2)) values := by
  subst hfields
  obtain ⟨ms, members, rfl, hnames, hvalues, hperm⟩ := h.exists_members
  rw [List.map_map] at hnames hvalues
  obtain ⟨entries, rfl, heq, hentries⟩ := exists_entries hnames hvalues
  refine ⟨entries.map (·.2), ?_, hentries⟩
  have hnone : ¬members.any (·.1.isNone) = true := by
    intro hany
    obtain ⟨m, hm, hnone⟩ := List.any_eq_true.mp hany
    obtain ⟨e, -, rfl⟩ := List.mem_map.mp (hperm.mem_iff.mpr hm)
    cases hnone
  have hsingle : ∀ e ∈ entries, single? members e.1 = some (some e.2) :=
    fun e he => single?_of_perm (heq ▸ hnodup) hperm he
  rw [fields?, if_neg hnone, ← heq, List.map_map]
  apply mapM_of_forall₂
  rw [List.forall₂_map_left_iff, List.forall₂_map_right_iff, List.forall₂_same]
  exact hsingle

theorem list?_of_reordered {decode : Json → Option α} {encode : α → Json}
    (hdecode : ∀ {x v}, Reordered (encode x) v → decode v = some x) {xs : List α} {v : Json}
    (h : Reordered (.array (xs.map encode)) v) : list? decode v = some xs := by
  obtain ⟨items, rfl, hitems⟩ := h.exists_items
  rw [List.forall₂_map_left_iff] at hitems
  exact mapM_of_forall₂ (hitems.flip.imp fun _ _ => hdecode)

theorem Reordered.eq_text {s : String} {v : Json} (h : Reordered (.text s) v) : v = .text s := by
  cases h
  rfl

theorem Reordered.eq_bool {b : Bool} {v : Json} (h : Reordered (.bool b) v) : v = .bool b := by
  cases h
  rfl

end

end Json
end Schemata
