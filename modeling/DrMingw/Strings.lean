import DrMingw.Win32

/-! C strings and code-page conversions over character lists. A string stands for
the characters before its terminating NUL, a buffer for all of its elements. -/
namespace DrMingw

variable {C : Type} [Zero C] [DecidableEq C]

/-- The string a buffer holds. -/
def cstr (buf : List C) : List C := buf.takeWhile (· ≠ 0)

/-- A wide string: what stands before its terminating NUL. -/
structure WideString where
  chars : List WCHAR
  noNul : 0 ∉ chars

/-- `strncpy` and `wcsncpy`: the buffer ends without a NUL when `s` fills it. -/
def strncpy (s : List C) (n : ℕ) : List C := s.take n ++ List.replicate (n - s.length) 0

/-- A buffer after a conversion to `s` with room for `n` characters, and the
number of characters written: 0 when the string and its NUL do not fit. Without any
room the conversion only tells how much of it is needed. -/
def convertInto (s : List C) (n : ℕ) (buf : List C) : ℕ × List C :=
  if n = 0 then (s.length + 1,buf)
  else if s.length < n then (s.length + 1,s ++ 0 :: buf.drop (s.length + 1))
  else (0,s.take n ++ buf.drop n)

/-- A conversion whose room, a `DWORD`, is passed as an `int`: a negative one is refused, and
nothing is written. -/
def convertSized (convert : ℕ → List C → ℕ × List C) (n : DWORD) (buf : List C) : ℕ × List C :=
  if n < 2^31 then convert n.toNat buf else (0,buf)

/-- The code-page conversions of the system, each on whole strings. -/
structure CodePages where
  /-- `MultiByteToWideChar` with `CP_ACP`. -/
  ansiToWide : List CHAR → List WCHAR
  /-- `MultiByteToWideChar` with `CP_UTF8`. -/
  utf8ToWide : List CHAR → List WCHAR
  /-- `WideCharToMultiByte` with `CP_ACP`. -/
  wideToAnsi : List WCHAR → List CHAR

theorem cstr_append_zero {s : List C} (h : (0 : C) ∉ s) (rest : List C) :
    cstr (s ++ 0 :: rest) = s := by
  have hs : ∀ c ∈ s, decide (c ≠ 0) = true := by
    intro c hc
    simp only [ne_eq,decide_eq_true_eq]
    rintro rfl
    exact h hc
  rw [cstr,List.takeWhile_append_of_pos hs]
  simp

/-- White space to `isspace`. -/
def isSpace (c : CHAR) : Bool := c = 32 || (9 ≤ c && c ≤ 13)

def isDigit (c : CHAR) : Bool := 48 ≤ c && c ≤ 57

/-- `atoi`: blanks, a sign, then digits, saturated to the range of `int`. -/
def atoi (s : List CHAR) : ℤ :=
  let s := s.dropWhile isSpace
  let negative := s.head? = some 45
  let s := if s.head? = some 45 ∨ s.head? = some 43 then s.tail else s
  let n : ℕ := (s.takeWhile isDigit).foldl (fun n c => 10 * n + (c.toNat - 48)) 0
  if negative then max (-(n : ℤ)) (-2^31) else min (n : ℤ) (2^31 - 1)

example : atoi [52,50,0] = 42 := by decide

end DrMingw
