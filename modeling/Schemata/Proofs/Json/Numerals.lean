/-
The spellings of floating-point numbers.  They have a digit other than zero in front, or a single
zero, and digits on both sides of the point, so they are numbers of the JSON notation.
-/
import Schemata.Json.Number
import Schemata.Proofs.Json.Writing

namespace Schemata

namespace Json

/-! ## Numbers -/

/-- One or more digits. -/
structure Digits (cs : List Char) : Prop where
  ne_nil : cs ≠ []
  all : ∀ c ∈ cs, isDigit c = true

inductive Exponent : List Char → Prop
  | none : Exponent []
  | some {sign ds : List Char} (hsign : sign = [] ∨ sign = ['-']) (h : Digits ds) :
    Exponent ('e' :: (sign ++ ds))

inductive Fraction : List Char → Prop
  | none : Fraction []
  | some {ds : List Char} (h : Digits ds) : Fraction ('.' :: ds)

/-- The parts of a number: a sign, digits without superfluous zeros in front, a fraction, and an
exponent. -/
structure Spells (sign whole fraction exponent : List Char) : Prop where
  of_sign : sign = [] ∨ sign = ['-']
  of_lead : whole.length ≤ 1 ∨ whole.head? ≠ some '0'
  of_whole : Digits whole
  of_fraction : Fraction fraction
  of_exponent : Exponent exponent

section

variable {cs rest ds sign whole fraction exponent : List Char}

theorem isNumeral_of_isDigit {c : Char} (h : isDigit c = true) : isNumeral c = true := by
  simp [isNumeral, h]

theorem digits_zero : Digits ['0'] := ⟨List.cons_ne_nil _ _, List.forall_mem_singleton.mpr rfl⟩

theorem Digits.append (h : Digits cs) (hall : ∀ c ∈ ds, isDigit c = true) : Digits (cs ++ ds) :=
  ⟨List.append_ne_nil_of_left_ne_nil h.ne_nil ds, List.forall_mem_append.mpr ⟨h.all, hall⟩⟩

theorem Digits.exists_cons (h : Digits cs) : ∃ c more, cs = c :: more ∧ isDigit c = true := by
  cases cs with
  | nil => exact absurd rfl h.ne_nil
  | cons c more => exact ⟨c, more, rfl, h.all c List.mem_cons_self⟩

theorem Digits.digits? (h : Digits cs) (hrest : ∀ c ∈ rest.head?, isDigit c = false) :
    digits? (cs ++ rest) = some (cs, rest) := by
  obtain ⟨htake, hdrop⟩ := takeWhile_run h.all hrest
  rw [Json.digits?, htake, hdrop, if_neg]
  rw [List.isEmpty_iff]
  exact h.ne_nil

theorem Exponent.head? (h : Exponent cs) : ∀ c ∈ cs.head?, isDigit c = false ∧ c ≠ '.' := by
  cases h with
  | none => simp
  | some _ _ =>
    intro c hc
    cases hc
    decide

theorem Exponent.isSome (h : Exponent cs) : (exponent? cs).isSome := by
  cases h with
  | none => rfl
  | @some sign ds hsign hds =>
    have hdigits : digits? (ds ++ []) = Option.some (ds, []) := hds.digits? (by simp)
    rw [List.append_nil] at hdigits
    rcases hsign with rfl | rfl
    · obtain ⟨d, more, rfl, hd⟩ := hds.exists_cons
      have hplus : d ≠ '+' := by rintro rfl; cases hd
      have hminus : d ≠ '-' := by rintro rfl; cases hd
      simp [exponent?, hplus, hminus, hdigits]
    · simp [exponent?, hdigits]

theorem Exponent.all (h : Exponent cs) : ∀ c ∈ cs, isNumeral c = true := by
  cases h with
  | none => simp
  | @some sign ds hsign hds =>
    refine List.forall_mem_cons.mpr ⟨rfl, List.forall_mem_append.mpr
      ⟨?_, fun c hc => isNumeral_of_isDigit (hds.all c hc)⟩⟩
    rcases hsign with rfl | rfl
    · simp
    · exact List.forall_mem_singleton.mpr rfl

theorem Fraction.all (h : Fraction cs) : ∀ c ∈ cs, isNumeral c = true := by
  cases h with
  | none => simp
  | some h =>
    exact List.forall_mem_cons.mpr ⟨rfl, fun c hc => isNumeral_of_isDigit (h.all c hc)⟩

/-- No digit goes on with the whole part. -/
theorem head?_fraction (hfraction : Fraction fraction) (hexponent : Exponent exponent) :
    ∀ c ∈ (fraction ++ exponent).head?, isDigit c = false := by
  cases hfraction with
  | none => exact fun c hc => (hexponent.head? c hc).1
  | some _ =>
    intro c hc
    cases hc
    rfl

theorem Spells.all (h : Spells sign whole fraction exponent) :
    ∀ c ∈ sign ++ (whole ++ (fraction ++ exponent)), isNumeral c = true := by
  have hsign : ∀ c ∈ sign, isNumeral c = true := by
    rcases h.of_sign with rfl | rfl
    · simp
    · exact List.forall_mem_singleton.mpr rfl
  have hwhole : ∀ c ∈ whole, isNumeral c = true := fun c hc =>
    isNumeral_of_isDigit (h.of_whole.all c hc)
  exact List.forall_mem_append.mpr ⟨hsign, List.forall_mem_append.mpr ⟨hwhole,
    List.forall_mem_append.mpr ⟨h.of_fraction.all, h.of_exponent.all⟩⟩⟩

theorem Spells.isSome (h : Spells sign whole fraction exponent) :
    (numeral? (sign ++ (whole ++ (fraction ++ exponent)))).isSome := by
  obtain ⟨e, he⟩ := Option.isSome_iff_exists.mp h.of_exponent.isSome
  have hwhole := h.of_whole.digits? (head?_fraction h.of_fraction h.of_exponent)
  obtain ⟨d, more, rfl, hd⟩ := h.of_whole.exists_cons
  have hminus : d ≠ '-' := by
    rintro rfl
    cases hd
  have hlead : 0 < more.length → d ≠ '0' := by
    intro hlong hzero
    rcases h.of_lead with hshort | hne
    · exact absurd hshort (Nat.not_le.mpr (Nat.succ_lt_succ hlong))
    · exact hne (congrArg some hzero)
  rw [List.cons_append] at hwhole ⊢
  cases h.of_fraction with
  | none =>
    rw [List.nil_append] at hwhole ⊢
    cases h.of_exponent with
    | none =>
      rw [List.append_nil] at hwhole ⊢
      rcases h.of_sign with rfl | rfl
      · simpa [numeral?, hminus, hwhole, he] using hlead
      · simpa [numeral?, hwhole, he] using hlead
    | some _ _ =>
      rcases h.of_sign with rfl | rfl
      · simpa [numeral?, hminus, hwhole, he] using hlead
      · simpa [numeral?, hwhole, he] using hlead
  | some hds =>
    have hfraction := hds.digits? fun c hc => (h.of_exponent.head? c hc).1
    rw [List.cons_append] at hwhole ⊢
    rcases h.of_sign with rfl | rfl
    · simpa [numeral?, hminus, hwhole, hfraction, he] using hlead
    · simpa [numeral?, hwhole, hfraction, he] using hlead

/-- A spelling of a number has a writing. -/
theorem Spells.written {spelling : String} (h : Spells sign whole fraction exponent)
    (hspelling : spelling.toList = sign ++ (whole ++ (fraction ++ exponent))) :
    Written (.number spelling) :=
  .number (hspelling ▸ h.isSome) (hspelling ▸ h.all)

end

end Json

namespace Decimal

open Json (Digits Exponent Fraction Spells digits_zero isDigit)

/-! ## Shortest decimals -/

section

variable {m : Nat} {q p : Int} {n : Nat}

theorem powUp_pos {base : Nat} (h : 0 < base) (e : Int) : 0 < powUp base e := Nat.pow_pos h

theorem powDown_pos {base : Nat} (h : 0 < base) (e : Int) : 0 < powDown base e := Nat.pow_pos h

/-- No interval of a number other than zero reaches down to zero. -/
theorem onGrid?_pos (hm : 0 < m) (h : onGrid? m q p = some n) : 0 < n := by
  have hlow : 0 < (Interval.around m q).low := by
    simp only [Interval.around]
    split <;> omega
  have hnum : 0 < (Interval.around m q).low * (powUp 2 (q - 2) * powDown 10 p) :=
    Nat.mul_pos hlow (Nat.mul_pos (powUp_pos (by decide) _) (powDown_pos (by decide) _))
  have hpos : ∀ {low k den high : Nat} {closed : Bool}, 0 < low →
      (if closed = true then decide (low ≤ k * den) && decide (k * den ≤ high)
        else decide (low < k * den) && decide (k * den < high)) = true → 0 < k := by
    intro low k den high closed hlow hinside
    refine Nat.pos_of_ne_zero fun hzero => ?_
    subst hzero
    split at hinside
    · rw [Nat.zero_mul, Bool.and_eq_true, decide_eq_true_eq] at hinside
      exact Nat.not_le.mpr hlow hinside.1
    · rw [Nat.zero_mul, Bool.and_eq_true, decide_eq_true_eq] at hinside
      exact Nat.not_lt_zero _ hinside.1
  unfold onGrid? at h
  dsimp only at h
  generalize (Interval.around m q).low * (powUp 2 (q - 2) * powDown 10 p) = low at h hnum
  generalize (Interval.around m q).middle * (powUp 2 (q - 2) * powDown 10 p) /
    (powDown 2 (q - 2) * powUp 10 p) = k at h
  split at h
  · next hinside _ =>
    cases h
    split
    · exact hpos hnum hinside
    · exact Nat.succ_pos k
  · next hinside _ =>
    cases h
    exact hpos hnum hinside
  · cases h
    exact Nat.succ_pos k
  · cases h

theorem search_pos (hm : 0 < m) {steps : Nat} {s : Scaled} (h : search m q steps p = some s) :
    0 < s.digits := by
  induction steps generalizing p with
  | zero => cases h
  | succ steps ih =>
    rw [search] at h
    split at h
    · next n hn =>
      cases h
      exact onGrid?_pos hm hn
    · exact ih h

theorem shortest_pos (hm : 0 < m) (q : Int) : 0 < (shortest m q).digits := by
  unfold shortest
  dsimp only
  cases hs : search m q 22 ((m.log2 + q) * 30103 / 100000 + 2) with
  | none => exact hm
  | some s => exact search_pos hm hs

end

/-! ## Renderings -/

theorem isDigit_of_mem_toDigits {c : Char} {n : Nat} (h : c ∈ Nat.toDigits 10 n) :
    isDigit c = true := by
  have hdigit := Nat.isDigit_of_mem_toDigits (by decide) (by decide) h
  simp only [Char.isDigit, Bool.and_eq_true, decide_eq_true_eq] at hdigit
  simp only [isDigit, Bool.and_eq_true, decide_eq_true_eq]
  exact hdigit

theorem digits_toDigits (n : Nat) : Digits (Nat.toDigits 10 n) :=
  ⟨Nat.toDigits_ne_nil, fun _ => isDigit_of_mem_toDigits⟩

theorem head?_toDigits {n : Nat} (h : 0 < n) : (Nat.toDigits 10 n).head? ≠ some '0' := by
  induction n using Nat.strongRecOn with
  | ind n ih =>
    rw [Nat.toDigits_eq_if (by decide)]
    split
    · next hlt =>
      have hall : ∀ n < 10, 0 < n → [n.digitChar].head? ≠ some '0' := by decide
      exact hall n hlt h
    · next hge =>
      rw [List.head?_append_of_ne_nil _ Nat.toDigits_ne_nil]
      exact ih (n / 10) (by omega) (by omega)

theorem isDigit_of_mem_zeros {c : Char} {n : Int} (h : c ∈ zeros n) : isDigit c = true := by
  rw [List.eq_of_mem_replicate h]
  rfl

/-- The power of ten in a rendering. -/
theorem exponent_toString (i : Int) : Exponent ('e' :: (toString i).toList) := by
  cases i with
  | ofNat n =>
    have htext : (toString (Int.ofNat n)).toList = [] ++ Nat.toDigits 10 n := Nat.toList_repr
    rw [htext]
    exact .some (.inl rfl) (digits_toDigits n)
  | negSucc n =>
    have htext : (toString (Int.negSucc n)).toList = ['-'] ++ Nat.toDigits 10 (n + 1) := by
      show ("-" ++ (n + 1).repr).toList = _
      rw [String.toList_append, Nat.toList_repr]
      rfl
    rw [htext]
    exact .some (.inr rfl) (digits_toDigits (n + 1))

/-- A decimal other than zero is rendered as a number, whichever way it is written. -/
theorem exists_spells_render {s : Scaled} (h : 0 < s.digits) {sign : List Char}
    (hsign : sign = [] ∨ sign = ['-']) :
    ∃ whole fraction exponent, s.render .standard = whole ++ (fraction ++ exponent) ∧
      Spells sign whole fraction exponent := by
  have hds := digits_toDigits s.digits
  have hhead := head?_toDigits h
  unfold Scaled.render
  dsimp only
  generalize Nat.toDigits 10 s.digits = ds at hds hhead ⊢
  obtain ⟨d, more, rfl, hd⟩ := hds.exists_cons
  split
  · refine ⟨d :: more ++ zeros s.exponent, ['.', '0'], [], by simp, hsign, .inr hhead,
      hds.append fun _ => isDigit_of_mem_zeros, .some digits_zero, .none⟩
  split
  · next hwhole hplaces =>
    -- The point stands behind the first digit and in front of the last one.
    obtain ⟨n, hn⟩ : ∃ n : Nat, ((d :: more).length + s.exponent).toNat = n + 1 := by
      rw [Bool.and_eq_true, decide_eq_true_eq, decide_eq_true_eq] at hplaces
      exact Nat.exists_eq_add_one_of_ne_zero (by omega)
    have hlt : n + 1 < (d :: more).length := by
      rw [Bool.and_eq_true, decide_eq_true_eq, decide_eq_true_eq] at hwhole hplaces
      omega
    rw [hn]
    refine ⟨(d :: more).take (n + 1), '.' :: (d :: more).drop (n + 1), [], by simp, hsign,
      .inr hhead, ⟨by simp, fun c hc => hds.all c (List.mem_of_mem_take hc)⟩,
      .some ⟨?_, fun c hc => hds.all c (List.mem_of_mem_drop hc)⟩, .none⟩
    rw [Ne, List.drop_eq_nil_iff]
    exact Nat.not_le.mpr hlt
  split
  · have hdigits : Digits (zeros (-((d :: more).length + s.exponent)) ++ d :: more) :=
      ⟨by simp, List.forall_mem_append.mpr ⟨fun _ => isDigit_of_mem_zeros, hds.all⟩⟩
    exact ⟨['0'], '.' :: (zeros _ ++ d :: more), [], by simp, hsign, .inl (Nat.le_refl 1),
      digits_zero, .some hdigits, .none⟩
  · have hfraction : Fraction (if (d :: more).length = 1 then [] else '.' :: (d :: more).drop 1) := by
      split
      · exact .none
      · next hlong =>
        refine .some ⟨fun hnil => hlong ?_, fun c hc => hds.all c (List.mem_of_mem_drop hc)⟩
        rw [List.drop_succ_cons, List.drop_zero] at hnil
        rw [hnil]
        rfl
    refine ⟨[d], _, _, ?_, hsign, .inl (Nat.le_refl 1), ⟨by simp, by simpa using hd⟩, hfraction,
      exponent_toString ((d :: more).length + s.exponent - 1)⟩
    simp only [List.append_assoc]
    rfl

/-- The text of a floating-point number is a number. -/
theorem written_render? {x : Float} {spelling : String} (h : render? x = some spelling) :
    Json.Written (.number spelling) := by
  unfold render? at h
  split at h
  · cases h
  · cases h
    generalize Parts.ofBits x.toBits.toNat = parts
    have hsign : (if parts.negative then ['-'] else []) = [] ∨
        (if parts.negative then ['-'] else []) = ['-'] := by
      cases parts.negative
      · exact .inl rfl
      · exact .inr rfl
    generalize (if parts.negative then ['-'] else []) = sign at hsign ⊢
    split
    · have hzero : Spells sign ['0'] ['.', '0'] [] :=
        ⟨hsign, .inl (Nat.le_refl 1), digits_zero, .some digits_zero, .none⟩
      exact hzero.written (String.toList_ofList)
    · next hne =>
      obtain ⟨whole, fraction, exponent, hrender, hspells⟩ :=
        exists_spells_render (shortest_pos (Nat.pos_of_ne_zero hne) parts.exponent) hsign
      rw [hrender]
      exact hspells.written String.toList_ofList

end Decimal
end Schemata
