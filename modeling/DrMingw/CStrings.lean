import Mathlib.Data.List.TakeWhile
import DrMingw.Strings

/-! Strings in memory: what is read from a buffer and the memory behind it, what the
bounded copies leave in one, and the numbers that decimal digits stand for. -/
namespace DrMingw

section Buffers

variable {C : Type} [Zero C] [DecidableEq C] {s t buf : List C} {n : ℕ}

theorem cstr_cons (c : C) (s : List C) : cstr (c::s) = if c = 0 then [] else c::cstr s := by
  by_cases hc : c = 0
  · simp [cstr,hc]
  · simp [cstr,hc]

theorem cstr_of_notMem (h : (0 : C) ∉ s) : cstr s = s := by
  rw [cstr,List.takeWhile_eq_self_iff]
  intro c hc
  simp only [ne_eq,decide_eq_true_eq]
  rintro rfl
  exact h hc

theorem zero_notMem_cstr (s : List C) : (0 : C) ∉ cstr s :=
  fun h => by simpa using List.mem_takeWhile_imp h

theorem cstr_replicate {c : C} (hc : c ≠ 0) (n : ℕ) :
    cstr (List.replicate n c) = List.replicate n c :=
  cstr_of_notMem fun h => hc (List.eq_of_mem_replicate h).symm

/-- A string ends at the first NUL, or goes on behind the buffer. -/
theorem cstr_append (s t : List C) : cstr (s ++ t) = if 0 ∈ s then cstr s else s ++ cstr t := by
  induction s with
  | nil => simp
  | cons c s ih =>
    rw [List.cons_append,cstr_cons,cstr_cons,ih]
    by_cases hc : c = 0
    · simp [hc]
    · by_cases hs : 0 ∈ s
      · simp [hc,hs]
      · simp [hc,hs,Ne.symm hc]

theorem cstr_append_of_notMem (h : (0 : C) ∉ s) (t : List C) : cstr (s ++ t) = s ++ cstr t := by
  rw [cstr_append,if_neg h]

theorem cstr_prefix_self (s : List C) : cstr s <+: s := List.takeWhile_prefix _

theorem cstr_length_lt_iff (s : List C) : (cstr s).length < s.length ↔ 0 ∈ s := by
  induction s with
  | nil => simp [cstr]
  | cons c s ih =>
    rw [cstr_cons]
    by_cases hc : c = 0
    · simp [hc]
    · simp [hc,Ne.symm hc,ih]

/-- A NUL among the first `n` characters ends a string that is shorter. -/
theorem zero_mem_take_iff : (0 : C) ∈ buf.take n ↔ 0 ∈ buf ∧ (cstr buf).length < n := by
  induction buf generalizing n with
  | nil => simp
  | cons c buf ih =>
    cases n with
    | zero => simp
    | succ n =>
      rw [List.take_succ_cons,List.mem_cons,List.mem_cons,ih,cstr_cons]
      by_cases hc : c = 0
      · simp [hc]
      · simp [hc,Ne.symm hc]

/-- The first `n` characters of the buffer hold a NUL, and the string it ends is `s` or
the beginning of `s`. -/
def HoldsPrefix (buf : List C) (n : ℕ) (s : List C) : Prop := 0 ∈ buf.take n ∧ cstr buf <+: s

/-- The first `n` characters of the buffer hold `s` and a NUL. -/
def HoldsString (buf : List C) (n : ℕ) (s : List C) : Prop := 0 ∈ buf.take n ∧ cstr buf = s

theorem HoldsString.holdsPrefix (h : HoldsString buf n s) : HoldsPrefix buf n s :=
  ⟨h.1,h.2 ▸ List.prefix_refl _⟩

theorem holdsString_append_zero (hs : (0 : C) ∉ s) (hn : s.length < n) (rest : List C) :
    HoldsString (s ++ 0::rest) n s := by
  refine ⟨?_,cstr_append_zero hs rest⟩
  rw [List.take_append,List.mem_append]
  right
  obtain ⟨m,hm⟩ : ∃ m, n - s.length = m + 1 := ⟨n - s.length - 1,by omega⟩
  rw [hm,List.take_succ_cons]
  exact List.mem_cons_self

/-- A buffer that begins with `n` characters of a string has no NUL there. -/
theorem not_holdsPrefix_full (hs : (0 : C) ∉ s) (hn : n ≤ s.length) (rest : List C) (t : List C) :
    ¬HoldsPrefix (s.take n ++ rest) n t := by
  rintro ⟨hz,-⟩
  have hlen : (s.take n).length = n := by rw [List.length_take]; omega
  rw [List.take_append_of_le_length (by omega),List.take_of_length_le (by omega)] at hz
  exact hs (List.mem_of_mem_take hz)

omit [DecidableEq C] in
theorem strncpy_of_lt (h : s.length < n) :
    strncpy s n = s ++ 0::List.replicate (n - s.length - 1) 0 := by
  have hzeros : n - s.length = n - s.length - 1 + 1 := by omega
  rw [strncpy,List.take_of_length_le h.le,hzeros,List.replicate_succ]
  rfl

omit [DecidableEq C] in
theorem strncpy_of_le (h : n ≤ s.length) : strncpy s n = s.take n := by
  rw [strncpy,Nat.sub_eq_zero_of_le h,List.replicate_zero,List.append_nil]

omit [DecidableEq C] in
theorem strncpy_length (s : List C) (n : ℕ) : (strncpy s n).length = n := by
  rw [strncpy,List.length_append,List.length_take,List.length_replicate]
  omega

/-- `strncpy` leaves a string in a buffer of `n` characters exactly if the string is
shorter than `n`. -/
theorem strncpy_holdsPrefix_iff (hs : (0 : C) ∉ s) (rest : List C) (t : List C) :
    HoldsPrefix (strncpy s n ++ rest) n t ↔ s.length < n ∧ s <+: t := by
  by_cases hn : s.length < n
  · have hholds := holdsString_append_zero hs hn (List.replicate (n - s.length - 1) 0 ++ rest)
    rw [strncpy_of_lt hn,List.append_assoc,List.cons_append]
    exact ⟨fun h => ⟨hn,hholds.2 ▸ h.2⟩,fun h => ⟨hholds.1,hholds.2.symm ▸ h.2⟩⟩
  · rw [strncpy_of_le (Nat.le_of_not_lt hn)]
    exact iff_of_false (not_holdsPrefix_full hs (by omega) _ _) fun h => hn h.1

omit [DecidableEq C] in
theorem convertInto_of_lt (h : s.length < n) (buf : List C) :
    convertInto s n buf = (s.length + 1,s ++ 0::buf.drop (s.length + 1)) := by
  rw [convertInto,if_neg (by omega),if_pos h]

omit [DecidableEq C] in
theorem convertInto_of_le (hn : n ≠ 0) (h : n ≤ s.length) (buf : List C) :
    convertInto s n buf = (0,s.take n ++ buf.drop n) := by
  rw [convertInto,if_neg hn,if_neg (by omega)]

/-- A conversion leaves a string in a buffer of `n` characters exactly if the result is
shorter than `n`. -/
theorem convertInto_holdsPrefix_iff (hs : (0 : C) ∉ s) (hn : n ≠ 0) (buf : List C) (t : List C) :
    HoldsPrefix (convertInto s n buf).2 n t ↔ s.length < n ∧ s <+: t := by
  by_cases hlt : s.length < n
  · have hholds := holdsString_append_zero hs hlt (buf.drop (s.length + 1))
    rw [convertInto_of_lt hlt]
    exact ⟨fun h => ⟨hlt,hholds.2 ▸ h.2⟩,fun h => ⟨hholds.1,hholds.2.symm ▸ h.2⟩⟩
  · rw [convertInto_of_le hn (Nat.le_of_not_lt hlt)]
    exact iff_of_false (not_holdsPrefix_full hs (by omega) _ _) fun h => hlt h.1

omit [Zero C] [DecidableEq C] in
theorem convertSized_of_lt {convert : ℕ → List C → ℕ × List C} {n : DWORD} (h : n < 2^31)
    (buf : List C) : convertSized convert n buf = convert n.toNat buf := if_pos h

omit [Zero C] [DecidableEq C] in
theorem convertSized_of_le {convert : ℕ → List C → ℕ × List C} {n : DWORD} (h : 2^31 ≤ n)
    (buf : List C) : convertSized convert n buf = (0,buf) := if_neg (UInt32.not_lt.mpr h)

/-- What is read back after a conversion: the result, or its first `n` characters and the
memory behind them. -/
theorem cstr_convertInto (hs : (0 : C) ∉ s) (hn : n ≠ 0) (buf : List C) :
    cstr (convertInto s n buf).2 =
      if s.length < n then s else s.take n ++ cstr (buf.drop n) := by
  split
  · next hlt =>
    rw [convertInto_of_lt hlt]
    exact cstr_append_zero hs _
  · next hle =>
    rw [convertInto_of_le hn (Nat.le_of_not_lt hle)]
    exact cstr_append_of_notMem (fun h => hs (List.mem_of_mem_take h)) _

theorem cstr_strncpy (hs : (0 : C) ∉ s) (rest : List C) :
    cstr (strncpy s n ++ rest) = if s.length < n then s else s.take n ++ cstr rest := by
  by_cases hn : s.length < n
  · rw [if_pos hn,strncpy_of_lt hn,List.append_assoc]
    exact cstr_append_zero hs _
  · rw [if_neg hn,strncpy_of_le (Nat.le_of_not_lt hn)]
    exact cstr_append_of_notMem (fun h => hs (List.mem_of_mem_take h)) _

theorem cstr_zeros (k : ℕ) (rest : List C) : cstr (List.replicate k 0 ++ 0::rest) = [] := by
  cases k with
  | zero => exact (cstr_cons 0 rest).trans (if_pos rfl)
  | succ k => exact (cstr_cons 0 _).trans (if_pos rfl)

/-- A full copy, ended at the last character of the buffer. -/
theorem cstr_set_last (hs : (0 : C) ∉ s) (hn : 0 < n) :
    cstr ((strncpy s n).set (n - 1) 0) = s.take (n - 1) := by
  have hlen : n - 1 < (strncpy s n).length := by
    rw [strncpy_length]
    omega
  have htake : (strncpy s n).take (n - 1) =
      s.take (n - 1) ++ List.replicate (min (n - 1 - min n s.length) (n - s.length)) 0 := by
    rw [strncpy,List.take_append,List.take_take,List.take_replicate,List.length_take,
      Nat.min_eq_left (Nat.sub_le n 1)]
  rw [List.set_eq_take_append_cons_drop,if_pos hlen,htake,List.append_assoc,
    cstr_append_of_notMem fun h => hs (List.mem_of_mem_take h),cstr_zeros,List.append_nil]

end Buffers

/-- Widening bytes makes no NUL. -/
theorem map_toUInt16_noNul (s : List CHAR) (hs : 0 ∉ s) : 0 ∉ s.map (·.toUInt16) := by
  intro h
  obtain ⟨c,hc,hz⟩ := List.mem_map.mp h
  have hn : c.toNat = (0 : CHAR).toNat :=
    (UInt8.toNat_toUInt16 c).symm.trans (congrArg UInt16.toNat hz)
  exact hs (UInt8.toNat_inj.mp hn ▸ hc)

section Decimal

variable {ds es s : List CHAR}

/-- The number that digits stand for. -/
def decimal (ds : List CHAR) : ℕ := ds.foldl (fun n c => 10 * n + (c.toNat - 48)) 0

/-- The digits `atoi` reads, behind blanks and a sign. -/
def atoiDigits (s : List CHAR) : List CHAR :=
  let s := s.dropWhile isSpace
  (if s.head? = some 45 ∨ s.head? = some 43 then s.tail else s).takeWhile isDigit

theorem atoi_eq (s : List CHAR) : atoi s = if (s.dropWhile isSpace).head? = some 45 then
    max (-(decimal (atoiDigits s) : ℤ)) (-2^31) else min (decimal (atoiDigits s) : ℤ) (2^31 - 1) := by
  simp [atoi,atoiDigits,decimal]

theorem decimal_concat (ds : List CHAR) (c : CHAR) :
    decimal (ds ++ [c]) = 10 * decimal ds + (c.toNat - 48) := by
  simp [decimal,List.foldl_append]

theorem decimal_append (ds es : List CHAR) :
    decimal (ds ++ es) = decimal ds * 10^es.length + decimal es := by
  induction es using List.reverseRecOn with
  | nil => simp [decimal]
  | append_singleton es c ih =>
    rw [← List.append_assoc,decimal_concat,ih,decimal_concat,List.length_append,
      List.length_singleton,pow_succ]
    ring

theorem isDigit_bounds {c : CHAR} (h : isDigit c = true) : 48 ≤ c.toNat ∧ c.toNat ≤ 57 := by
  simp only [isDigit,Bool.and_eq_true,decide_eq_true_eq,UInt8.le_iff_toNat_le] at h
  exact h

/-- Leading zeros included, a number is below the power of 10 that its length gives. -/
theorem decimal_lt (h : ∀ c ∈ ds, isDigit c = true) : decimal ds < 10^ds.length := by
  induction ds using List.reverseRecOn with
  | nil => simp [decimal]
  | append_singleton ds c ih =>
    have hds := ih fun x hx => h x (List.mem_append_left [c] hx)
    have hc := isDigit_bounds (h c (by simp))
    rw [decimal_concat,List.length_append,List.length_singleton,pow_succ]
    omega

theorem decimal_eq_zero_iff (h : ∀ c ∈ ds, isDigit c = true) : decimal ds = 0 ↔ ∀ c ∈ ds, c = 48 := by
  induction ds using List.reverseRecOn with
  | nil => simp [decimal]
  | append_singleton ds c ih =>
    have hds := ih fun x hx => h x (List.mem_append_left [c] hx)
    have hc := isDigit_bounds (h c (by simp))
    have heq : c = 48 ↔ c.toNat = 48 := by rw [← UInt8.toNat_inj]; rfl
    rw [decimal_concat,List.forall_mem_append,List.forall_mem_singleton,← hds,heq]
    omega

theorem isDigit_of_mem_atoiDigits {c : CHAR} (h : c ∈ atoiDigits s) : isDigit c = true :=
  List.mem_takeWhile_imp h

theorem atoi_eq_zero_iff (s : List CHAR) : atoi s = 0 ↔ ∀ c ∈ atoiDigits s, c = 48 := by
  rw [← decimal_eq_zero_iff fun c hc => isDigit_of_mem_atoiDigits hc,atoi_eq]
  split <;> omega

theorem atoi_bounds (s : List CHAR) : -2^31 ≤ atoi s ∧ atoi s < 2^31 := by
  rw [atoi_eq]
  split <;> omega

theorem takeWhile_cstr (s : List CHAR) : (cstr s).takeWhile isDigit = s.takeWhile isDigit := by
  induction s with
  | nil => rfl
  | cons c s ih =>
    rw [cstr_cons]
    by_cases hc : c = 0
    · subst hc
      rfl
    · rw [if_neg hc,List.takeWhile_cons,List.takeWhile_cons,ih]

/-- A digit is neither white space nor a sign. -/
theorem atoiDigits_of_isDigit {c : CHAR} (hc : isDigit c = true) (s : List CHAR) :
    atoiDigits (c::s) = (c::s).takeWhile isDigit ∧ (c::s).dropWhile isSpace = c::s ∧ c ≠ 45 := by
  have h48 := (isDigit_bounds hc).1
  have hne : ∀ x : CHAR, x.toNat < 48 → c ≠ x := by
    rintro x hx rfl
    omega
  have hspace : isSpace c = false := by
    have h13 : ¬c.toNat ≤ 13 := by omega
    simp [isSpace,hne 32 (by decide),UInt8.le_iff_toNat_le,h13]
  have hdrop : (c::s).dropWhile isSpace = c::s := by simp [hspace]
  have h45 := hne 45 (by decide)
  have h43 := hne 43 (by decide)
  refine ⟨?_,hdrop,h45⟩
  rw [atoiDigits,hdrop]
  simp [h45,h43]

theorem decimal_takeWhile_lt (s : List CHAR) : decimal (s.takeWhile isDigit) < 10^s.length :=
  (decimal_lt fun _ hc => List.mem_takeWhile_imp hc).trans_le
    (Nat.pow_le_pow_right (by decide) (List.takeWhile_prefix _).length_le)

/-- A number that starts at once is read up to its last digit, as far as it fits. -/
theorem atoi_of_isDigit {c : CHAR} (hc : isDigit c = true) (s : List CHAR) :
    atoi (cstr (c::s)) = min (decimal ((c::s).takeWhile isDigit) : ℤ) (2^31 - 1) := by
  have hc₀ : c ≠ 0 := by
    rintro rfl
    exact absurd hc (by decide)
  have hstr : cstr (c::s) = c::cstr s := by rw [cstr_cons,if_neg hc₀]
  obtain ⟨hread,hdrop,hsign⟩ := atoiDigits_of_isDigit hc (cstr s)
  have hdigits : atoiDigits (c::cstr s) = (c::s).takeWhile isDigit := by
    rw [hread,← hstr,takeWhile_cstr]
  rw [hstr,atoi_eq,hdrop,if_neg (by simpa using hsign),hdigits]

/-- One more digit makes a number at least ten times as large. -/
theorem ten_mul_decimal_le {c : CHAR} (hc : isDigit c = true) (ds rest : List CHAR) :
    10 * decimal ds ≤ decimal (ds ++ (c::rest).takeWhile isDigit) := by
  have hten : 10 ≤ 10^((rest.takeWhile isDigit).length + 1) := Nat.le_self_pow (by omega) 10
  rw [decimal_append,List.takeWhile_cons_of_pos hc,List.length_cons]
  calc 10 * decimal ds
      ≤ 10^((rest.takeWhile isDigit).length + 1) * decimal ds := Nat.mul_le_mul_right _ hten
    _ = decimal ds * 10^((rest.takeWhile isDigit).length + 1) := Nat.mul_comm _ _
    _ ≤ _ := Nat.le_add_right _ _

/-- `atoi` reads the number that stands at the end of a field of seven characters or less,
unless there is none or its digits go on behind the field, and are not all 0. -/
theorem atoi_field_iff (ds : List CHAR) (c : CHAR) (rest : List CHAR) (hlen : ds.length ≤ 7) :
    atoi (cstr (ds ++ c::rest)) = decimal (ds.takeWhile isDigit) ↔
      (ds.takeWhile isDigit ≠ [] ∧ ((ds.takeWhile isDigit).length = ds.length → isDigit c = false)) ∨
        ∀ x ∈ atoiDigits (cstr (ds ++ c::rest)), x = 48 := by
  rw [← atoi_eq_zero_iff]
  cases ds with
  | nil => simp [decimal]
  | cons d ds =>
    by_cases hd : isDigit d = true
    · have hsmall : decimal ((d::ds).takeWhile isDigit) < 10^7 :=
        (decimal_takeWhile_lt _).trans_le (Nat.pow_le_pow_right (by decide) hlen)
      have hne : (d::ds).takeWhile isDigit ≠ [] := by simp [hd]
      rw [List.cons_append,atoi_of_isDigit hd,← List.cons_append,List.takeWhile_append]
      by_cases hfull : ((d::ds).takeWhile isDigit).length = (d::ds).length
      · have hall : (d::ds).takeWhile isDigit = d::ds :=
          (List.takeWhile_prefix _).eq_of_length hfull
        rw [if_pos hfull,hall]
        rw [hall] at hsmall
        by_cases hc : isDigit c = true
        · have hten := ten_mul_decimal_le hc (d::ds) rest
          rw [or_iff_right (by simp [hc])]
          omega
        · rw [List.takeWhile_cons_of_neg hc,List.append_nil]
          have hends : isDigit c = false := by simpa using hc
          simp only [hends,ne_eq,reduceCtorEq,not_false_eq_true,implies_true,and_self,true_or,
            iff_true]
          omega
      · rw [if_neg hfull]
        refine iff_of_true (by omega) (.inl ⟨hne,fun h => absurd h hfull⟩)
    · have hnone : (d::ds).takeWhile isDigit = [] := List.takeWhile_cons_of_neg hd
      rw [hnone]
      simp [decimal]

end Decimal

end DrMingw
