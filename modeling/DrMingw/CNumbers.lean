import DrMingw.Numerals
import DrMingw.Strings

/-! Numbers in wide strings as the C runtime prints and reads them. `long` has 32 bits. -/
namespace DrMingw
namespace CNumbers

open Numerals

def wideDigits : Digits WCHAR where
  digit d := if d < 10 then UInt16.ofNat (48+d) else UInt16.ofNat (87+d)
  value c :=
    if 48 ≤ c ∧ c ≤ 57 then some (c.toNat - 48)
    else if 97 ≤ c ∧ c ≤ 122 then some (c.toNat - 87)
    else if 65 ≤ c ∧ c ≤ 90 then some (c.toNat - 55)
    else none
  limit := 36
  value_digit := by decide

/-- The digits of `%X`. -/
def upperDigits : Digits WCHAR where
  digit d := if d < 10 then UInt16.ofNat (48+d) else UInt16.ofNat (55+d)
  value := wideDigits.value
  limit := 36
  value_digit := by decide

def MINUS : WCHAR := 0x2D
def PLUS : WCHAR := 0x2B
def ZERO : WCHAR := 0x30

def iswspace (c : WCHAR) : Bool := c = 32 || (9 ≤ c && c ≤ 13)

/-- The base of a number that is read with base 0 or 16, and its digits. -/
def numberBase (base : ℕ) (s : List WCHAR) : ℕ × List WCHAR :=
  match s with
  | c::x::rest =>
    if (base = 0 ∨ base = 16) ∧ c = ZERO ∧ (x = 0x78 ∨ x = 0x58) then (16,rest)
    else if base = 0 then (if c = ZERO then 8 else 10,s)
    else (base,s)
  | _ => (if base = 0 then 10 else base,s)

/-- The sign in front of a number, and its value. -/
def readNumber (base : ℕ) (s : List WCHAR) : Bool × ℕ :=
  let s := s.dropWhile iswspace
  let digits := if s.head? = some MINUS ∨ s.head? = some PLUS then s.tail else s
  let n := numberBase base digits
  (s.head? = some MINUS,readDigits wideDigits n.1 0 n.2)

/-- An unsigned number is negated modulo the width, and saturates. -/
def wcstoul (s : List WCHAR) (base : ℕ) : DWORD :=
  let r := readNumber base s
  if 2^32 ≤ r.2 then 0xFFFFFFFF
  else if r.1 then -UInt32.ofNat r.2 else UInt32.ofNat r.2

def wcstoull (s : List WCHAR) (base : ℕ) : DWORD64 :=
  let r := readNumber base s
  if 2^64 ≤ r.2 then 0xFFFFFFFFFFFFFFFF
  else if r.1 then -UInt64.ofNat r.2 else UInt64.ofNat r.2

def wcstol (s : List WCHAR) (base : ℕ) : ℤ :=
  let r := readNumber base s
  if r.1 then max (-(r.2 : ℤ)) (-2^31) else min (r.2 : ℤ) (2^31 - 1)

/-- `%ld` and `%d`. -/
def printLong (v : ℤ) : List WCHAR :=
  if v < 0 then MINUS :: numeral wideDigits 10 v.natAbs else numeral wideDigits 10 v.natAbs

example : printLong (-40) = wide "-40" := by decide

theorem digit_ne {d : ℕ} (hd : d < 10) :
    iswspace (wideDigits.digit d) = false ∧ wideDigits.digit d ≠ MINUS ∧
      wideDigits.digit d ≠ PLUS ∧ (wideDigits.digit d = ZERO ↔ d = 0) := by
  revert d
  decide

/-- A decimal numeral has no blank and no sign in front. -/
theorem numeral_front (n : ℕ) :
    (numeral wideDigits 10 n).dropWhile iswspace = numeral wideDigits 10 n ∧
      (numeral wideDigits 10 n).head? ≠ some MINUS ∧
      (numeral wideDigits 10 n).head? ≠ some PLUS := by
  obtain ⟨c,rest,hs⟩ := List.exists_cons_of_ne_nil (numeral_ne_nil (D := wideDigits) (b := 10) n)
  obtain ⟨d,hd,rfl⟩ := mem_numeral (by decide) (show c ∈ numeral wideDigits 10 n by simp [hs])
  obtain ⟨hblank,hminus,hplus,-⟩ := digit_ne hd
  simp [hs,hblank,hminus,hplus]

/-- A decimal numeral is read in base 10 when the base is left to it. -/
theorem readDigits_base (n : ℕ) :
    readDigits wideDigits (numberBase 0 (numeral wideDigits 10 n)).1 0
      (numberBase 0 (numeral wideDigits 10 n)).2 = n := by
  have hread : readDigits wideDigits 10 0 (numeral wideDigits 10 n) = n := by
    have h := readDigits_numeral (D := wideDigits) (b := 10) (by decide) (by decide) n ends_nil
    rwa [List.append_nil] at h
  rcases Nat.eq_zero_or_pos n with rfl | hn
  · rfl
  · obtain ⟨d,rest,hpos,hd,hs⟩ := numeral_head (D := wideDigits) (b := 10) (by decide) hn
    have hzero : wideDigits.digit d ≠ ZERO := by
      rw [ne_eq,(digit_ne hd).2.2.2]
      omega
    have hbase : numberBase 0 (numeral wideDigits 10 n) = (10,numeral wideDigits 10 n) := by
      rw [hs]
      cases rest <;> simp [numberBase,hzero]
    rw [hbase]
    exact hread

theorem readNumber_numeral (n : ℕ) :
    readNumber 0 (numeral wideDigits 10 n) = (false,n) := by
  obtain ⟨hblank,hminus,hplus⟩ := numeral_front n
  simp [readNumber,hblank,hminus,hplus,readDigits_base]

theorem readNumber_minus (n : ℕ) :
    readNumber 0 (MINUS :: numeral wideDigits 10 n) = (true,n) := by
  have hblank : iswspace MINUS = false := by decide
  simp [readNumber,hblank,readDigits_base]

theorem hexDigit_ne {d : ℕ} (hd : d < 16) :
    iswspace (wideDigits.digit d) = false ∧ wideDigits.digit d ≠ MINUS ∧
      wideDigits.digit d ≠ PLUS ∧ wideDigits.digit d ≠ 0x78 ∧ wideDigits.digit d ≠ 0x58 := by
  revert d
  decide

/-- A hexadecimal numeral has nothing in front that is not one of its digits. -/
theorem readNumber_hex (n : ℕ) : readNumber 16 (numeral wideDigits 16 n) = (false,n) := by
  have hdigit {c : WCHAR} (hc : c ∈ numeral wideDigits 16 n) :
      iswspace c = false ∧ c ≠ MINUS ∧ c ≠ PLUS ∧ c ≠ 0x78 ∧ c ≠ 0x58 := by
    obtain ⟨d,hd,rfl⟩ := mem_numeral (by decide) hc
    exact hexDigit_ne hd
  have hread : readDigits wideDigits 16 0 (numeral wideDigits 16 n) = n := by
    have h := readDigits_numeral (D := wideDigits) (b := 16) (by decide) (by decide) n ends_nil
    rwa [List.append_nil] at h
  have hbase : numberBase 16 (numeral wideDigits 16 n) = (16,numeral wideDigits 16 n) := by
    unfold numberBase
    split
    · next c x rest hs =>
      obtain ⟨-,-,-,hx,hX⟩ := hdigit (show x ∈ numeral wideDigits 16 n by simp [hs])
      simp [hx,hX,hs]
    · rfl
  obtain ⟨c,rest,hs⟩ := List.exists_cons_of_ne_nil (numeral_ne_nil (D := wideDigits) (b := 16) n)
  obtain ⟨hblank,hminus,hplus,-,-⟩ := hdigit (show c ∈ numeral wideDigits 16 n by simp [hs])
  have hdrop : (numeral wideDigits 16 n).dropWhile iswspace = numeral wideDigits 16 n := by
    simp [hs,hblank]
  have hsign : ¬(numeral wideDigits 16 n).head? = some MINUS := by simp [hs,hminus]
  have hplus' : ¬(numeral wideDigits 16 n).head? = some PLUS := by simp [hs,hplus]
  simp [readNumber,hdrop,hsign,hplus',hbase,hread]

/-- What `%I64x` prints is read back. -/
theorem wcstoull_hex (n : DWORD64) : wcstoull (numeral wideDigits 16 n.toNat) 16 = n := by
  have hlimit : ¬2^64 ≤ n.toNat := not_le.mpr n.toNat_lt
  rw [wcstoull,readNumber_hex]
  simp only [if_neg hlimit]
  exact UInt64.ofNat_toNat

/-- A `long` is read back as it was printed. -/
theorem wcstol_printLong {v : ℤ} (hlow : -2^31 ≤ v) (hhigh : v < 2^31) :
    wcstol (printLong v) 0 = v := by
  by_cases hv : v < 0
  · simp only [printLong,hv,if_true,wcstol,readNumber_minus]
    omega
  · simp only [printLong,hv,if_false,wcstol,readNumber_numeral]
    simp only [Bool.false_eq_true,if_false]
    omega

/-- A number below the limit is read back by the unsigned conversion. -/
theorem wcstoul_printLong {n : ℕ} (hn : n < 2^32) : wcstoul (printLong n) 0 = UInt32.ofNat n := by
  have hv : ¬(n : ℤ) < 0 := by omega
  have hlimit : ¬2^32 ≤ n := by omega
  simp only [printLong,hv,if_false,wcstoul,Int.natAbs_natCast,readNumber_numeral,hlimit]
  rfl

/-- What is printed has no blank and no quote, and begins with a digit or a minus. -/
theorem mem_printLong {v : ℤ} {c : WCHAR} (h : c ∈ printLong v) :
    c = MINUS ∨ 48 ≤ c ∧ c ≤ 57 := by
  have hall : ∀ d < 10, 48 ≤ wideDigits.digit d ∧ wideDigits.digit d ≤ 57 := by decide
  have hdigit (hc : c ∈ numeral wideDigits 10 v.natAbs) : 48 ≤ c ∧ c ≤ 57 := by
    obtain ⟨d,hd,rfl⟩ := mem_numeral (by decide) hc
    exact hall d hd
  simp only [printLong] at h
  split at h
  · rcases List.mem_cons.mp h with rfl | h
    · exact .inl rfl
    · exact .inr (hdigit h)
  · exact .inr (hdigit h)

/-- A number that is not negative begins with a digit. -/
theorem printLong_head (n : ℕ) :
    0x30 ≤ (printLong n).headD 0 ∧ (printLong n).headD 0 ≤ 0x39 := by
  have hne : printLong n ≠ [] := by
    unfold printLong
    split
    · simp
    · exact numeral_ne_nil _
  obtain ⟨c,rest,hs⟩ := List.exists_cons_of_ne_nil hne
  have hc : c ∈ printLong n := by simp [hs]
  have hminus : c ≠ MINUS := by
    rintro rfl
    have hv : ¬(n : ℤ) < 0 := by omega
    rw [printLong,if_neg hv] at hs
    exact (numeral_front (n : ℤ).natAbs).2.1 (by rw [hs]; rfl)
  rw [hs]
  exact (mem_printLong hc).resolve_left hminus

end CNumbers
end DrMingw
