import Mathlib.Data.List.DropRight
import Stencil.Proofs.Number.Notation

set_option autoImplicit false

namespace Stencil.Decimal

variable {c : Char} {ds es : List Char} {m n : Nat}

def significant (ds : List Char) : List Char :=
  (ds.dropWhile (· == '0')).rdropWhile (· == '0')

def WithinDigits (m n : Nat) : Prop := ∃ k j, k < 10 ^ n ∧ m = k * 10 ^ j

theorem WithinDigits.ten_mul (h : WithinDigits m n) : WithinDigits (10 * m) n := by
  obtain ⟨k,j,hk,rfl⟩ := h
  exact ⟨k,j + 1,hk,by rw [Nat.pow_succ',Nat.mul_left_comm]⟩

theorem withinDigits_of_lt (h : m < 10 ^ n) : WithinDigits m n := ⟨m,0,h,by simp⟩

theorem withinDigits_of_le (hn : 0 < n) (h : m ≤ 10 ^ n) : WithinDigits m n := by
  obtain hlt | rfl := Nat.lt_or_eq_of_le h
  · exact withinDigits_of_lt hlt
  · exact ⟨1,n,Nat.one_lt_pow hn.ne' (by decide),by simp⟩

theorem isDigit_iff : isDigit c = true ↔ '0' ≤ c ∧ c ≤ '9' := by simp [isDigit]

theorem digitValue_lt (h : isDigit c = true) : digitValue c < 10 := by
  have hc : c.toNat ≤ '9'.toNat := (isDigit_iff.mp h).2
  have : '9'.toNat = 57 := rfl
  have : '0'.toNat = 48 := rfl
  unfold digitValue
  omega

theorem digitValue_pos (h : isDigit c = true) (hne : c ≠ '0') : 0 < digitValue c := by
  have hc : '0'.toNat ≤ c.toNat := (isDigit_iff.mp h).1
  have hlt : '0'.toNat ≠ c.toNat := fun heq => hne (Char.toNat_inj.mp heq.symm)
  unfold digitValue
  omega

theorem ofDigits_cons (c : Char) (ds : List Char) :
    ofDigits (c :: ds) = 10 ^ ds.length * digitValue c + ofDigits ds := by
  have h : ofDigits (c :: ds) = Nat.ofDigitChars 10 ds (digitValue c) := by
    show ds.foldl _ (10 * 0 + digitValue c) = _
    rw [Nat.mul_zero,Nat.zero_add]
    rfl
  rw [h,Nat.ofDigitChars_eq_ofDigitChars_zero]
  rfl

theorem ofDigits_concat (ds : List Char) (c : Char) :
    ofDigits (ds ++ [c]) = 10 * ofDigits ds + digitValue c := by
  simp [ofDigits]

theorem ofDigits_append_replicate (ds : List Char) (n : Nat) :
    ofDigits (ds ++ List.replicate n '0') = ofDigits ds * 10 ^ n := by
  rw [ofDigits_append,Nat.ofDigitChars_replicate_zero,Nat.mul_comm]

theorem Digits.ofDigits_lt (h : Digits ds) : ofDigits ds < 10 ^ ds.length := by
  induction ds with
  | nil => decide
  | cons c ds ih =>
    have hc := digitValue_lt (h c (by simp))
    have hds := ih fun d hd => h d (by simp [hd])
    have hhead := Nat.mul_le_mul_left (10 ^ ds.length) (Nat.succ_le_of_lt hc)
    rw [ofDigits_cons,List.length_cons,Nat.pow_succ]
    rw [Nat.mul_succ] at hhead
    omega

theorem le_ofDigits (hc : isDigit c = true) (hne : c ≠ '0') :
    10 ^ ds.length ≤ ofDigits (c :: ds) := by
  have hpos := digitValue_pos hc hne
  rw [ofDigits_cons]
  exact Nat.le_add_right_of_le (Nat.le_mul_of_pos_right _ hpos)

theorem not_ten_dvd (hc : isDigit c = true) (hne : c ≠ '0') : ¬10 ∣ ofDigits (ds ++ [c]) := by
  have hpos := digitValue_pos hc hne
  have hlt := digitValue_lt hc
  rw [ofDigits_concat]
  omega

theorem Digits.significant (h : Digits ds) : Digits (significant ds) := fun c hc =>
  h c ((List.dropWhile_sublist _).subset ((List.rdropWhile_prefix _ _).subset hc))

theorem ofDigits_dropWhile (ds : List Char) : ofDigits (ds.dropWhile (· == '0')) = ofDigits ds := by
  have hzeros : ds.takeWhile (· == '0') = List.replicate (ds.takeWhile (· == '0')).length '0' :=
    List.eq_replicate_of_mem fun c hc => by simpa using List.mem_takeWhile_imp hc
  conv => rhs; rw [← List.takeWhile_append_dropWhile (p := (· == '0')) (l := ds),hzeros]
  rw [ofDigits_replicate_append]

theorem ofDigits_rdropWhile (ds : List Char) :
    ∃ j, ofDigits ds = ofDigits (ds.rdropWhile (· == '0')) * 10 ^ j := by
  have hzeros : ds.rtakeWhile (· == '0') = List.replicate (ds.rtakeWhile (· == '0')).length '0' :=
    List.eq_replicate_of_mem fun c hc => by simpa using List.mem_rtakeWhile_imp hc
  refine ⟨(ds.rtakeWhile (· == '0')).length,?_⟩
  rw [← ofDigits_append_replicate,← hzeros,List.rdropWhile_append_rtakeWhile]

theorem ofDigits_significant (ds : List Char) :
    ∃ j, ofDigits ds = ofDigits (significant ds) * 10 ^ j := by
  obtain ⟨j,hj⟩ := ofDigits_rdropWhile (ds.dropWhile (· == '0'))
  exact ⟨j,by rw [← ofDigits_dropWhile,hj,Decimal.significant]⟩

/-- The significant digits are as many as their number has, and no zero can be told by a power of
ten. -/
theorem significant_bounds (h : Digits ds) (hne : significant ds ≠ []) :
    10 ^ ((significant ds).length - 1) ≤ ofDigits (significant ds) ∧
      ¬10 ∣ ofDigits (significant ds) := by
  have hdigits := h.significant
  constructor
  · have hrest : ds.dropWhile (· == '0') ≠ [] := by
      intro hnil
      simp [significant,hnil] at hne
    have hhead : (significant ds).head hne = (ds.dropWhile (· == '0')).head hrest :=
      (List.rdropWhile_prefix _ _).head hne
    have hzero := List.head_dropWhile_not (· == '0') hrest
    rw [← hhead] at hzero
    obtain ⟨c,cs,hcons⟩ := List.exists_cons_of_ne_nil hne
    simp only [hcons,List.head_cons,beq_eq_false_iff_ne] at hzero
    rw [hcons]
    exact le_ofDigits (hdigits c (by simp [hcons])) hzero
  · have hzero := List.rdropWhile_last_not (· == '0') (ds.dropWhile (· == '0')) hne
    have hlast := List.dropLast_concat_getLast hne
    rw [← hlast]
    exact not_ten_dvd (hdigits _ (List.getLast_mem hne))
      fun hlast => hzero (beq_iff_eq.mpr hlast)

theorem length_significant_le_iff (h : Digits ds) :
    (significant ds).length ≤ n ↔ WithinDigits (ofDigits ds) n := by
  obtain ⟨j,hj⟩ := ofDigits_significant ds
  constructor
  · intro hle
    have hlt := h.significant.ofDigits_lt
    exact ⟨_,j,Nat.lt_of_lt_of_le hlt (Nat.pow_le_pow_right (by decide) hle),hj⟩
  · rintro ⟨k,i,hk,hi⟩
    by_cases hne : significant ds = []
    · simp [hne]
    obtain ⟨hlow,hten⟩ := significant_bounds h hne
    have hij : i ≤ j := by
      by_contra hlt
      obtain ⟨t,rfl⟩ : ∃ t, i = t + 1 + j := ⟨i - j - 1,by omega⟩
      refine hten ⟨k * 10 ^ t,?_⟩
      refine Nat.eq_of_mul_eq_mul_right (Nat.pow_pos (show 0 < 10 by decide) : 0 < 10 ^ j) ?_
      rw [← hj,hi,Nat.pow_add,Nat.pow_succ]
      ring
    obtain ⟨t,rfl⟩ : ∃ t, j = t + i := ⟨j - i,by omega⟩
    have heq : k = ofDigits (significant ds) * 10 ^ t := by
      refine Nat.eq_of_mul_eq_mul_right (Nat.pow_pos (show 0 < 10 by decide) : 0 < 10 ^ i) ?_
      rw [← hi,hj,Nat.pow_add,Nat.mul_assoc]
    have hlt : 10 ^ ((significant ds).length - 1) < 10 ^ n :=
      calc 10 ^ ((significant ds).length - 1) ≤ ofDigits (significant ds) := hlow
        _ ≤ k := heq ▸ Nat.le_mul_of_pos_right _ (Nat.pow_pos (by decide))
        _ < 10 ^ n := hk
    have := (Nat.pow_lt_pow_iff_right (by decide)).mp hlt
    omega

end Stencil.Decimal
