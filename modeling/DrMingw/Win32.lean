import Mathlib.Data.UInt
import Mathlib.Tactic

/-! The Windows types the sources are written in. Handles are opaque tokens;
strings are the characters before the terminating NUL. -/
namespace DrMingw

abbrev DWORD := UInt32
abbrev DWORD64 := UInt64
abbrev CHAR := UInt8
abbrev WCHAR := UInt16

/-- Handles are only passed on and compared; `NULL` is the value 0. -/
abbrev HANDLE := ℕ

abbrev NULL : HANDLE := 0

def MAX_PATH : ℕ := 260

/-- How the sources were built. `NDEBUG` compiles the assertions out. -/
structure Build where
  win64 : Bool := true
  ndebug : Bool := true
  deriving DecidableEq

/-- A wide string literal of the sources. -/
def wide (s : String) : List WCHAR := s.toList.map fun c => UInt16.ofNat c.toNat

end DrMingw
