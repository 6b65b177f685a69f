import DrMingw.DebugStrings
import DrMingw.DefaultReport
import DrMingw.Log
import DrMingw.ReportText
import DrMingw.SourcePaths
import DrMingw.SymbolNames

/-! The report of an exception from the calls that make it up to the bytes in the file:
every text fits the buffer it is formatted in, and the file gets all of them. -/
namespace DrMingw
namespace ExceptionReport

open Printf Log
open DebugLoop (ExceptionRecord vsnwprintf vsnwprintf_holdsString_iff)
open ReportText (KeepsPairs writeReports crlf)

/-- What the system answers while a report is generated. -/
structure Answers where
  (GetDateFormatW GetTimeFormatW : List WCHAR)
  InitializeSym : Bool
  stack : StackAnswers
  /-- What the source files hold, if they can be opened. -/
  file : List WCHAR → Option (List CHAR)
  /-- The snapshot of the modules, if it can be taken. -/
  modules : Option (List MODULEENTRY32W)
  version : List WCHAR → VersionAnswers
  /-- `GetModuleFileNameW` of `kernel32`, if there is that module. -/
  kernel32 : Option (List WCHAR → DWORD → DWORD × List WCHAR)

variable (arch : Arch) (a : Answers)

/-- What the callback finds at `szBuffer`: `stack` is what was in the memory there before. -/
def szBuffer (rt : Runtime) (stack : List WCHAR) (call : PrintfCall) : Option (List WCHAR) :=
  (call.text rt).map fun text => vsnwprintf text 1024 stack

/-- What the system promises of its answers. -/
structure Answers.Documented : Prop where
  date : a.GetDateFormatW.length < 128 ∧ 0 ∉ a.GetDateFormatW
  time : a.GetTimeFormatW.length < 128 ∧ 0 ∉ a.GetTimeFormatW
  moduleName : ∀ h szModule, a.stack.GetModuleFileNameExW h = some szModule →
    szModule.length < MAX_PATH ∧ 0 ∉ szModule
  modules : ∀ ms, a.modules = some ms → ∀ m ∈ ms,
    m.szExePath.length < MAX_PATH ∧ 0 ∉ m.szExePath
  /-- A path short enough for the buffer to grow to. -/
  kernel32 : ∀ GetModuleFileNameW, a.kernel32 = some GetModuleFileNameW →
    ∃ m : ReportDestination.ModuleFileName, m.GetModuleFileNameW = GetModuleFileNameW ∧
      m.path.length < MAX_PATH * 2^23

def endsPlain (format : List WCHAR) : Bool :=
  (pieces none format).any fun ps => ps.getLast?.any Piece.isPlain

def startsPlain (format : List WCHAR) : Bool :=
  (pieces none format).any fun ps => ps.head?.any Piece.isPlain

/-- The text of a call, which fits in the buffer of `lprintf` together with its NUL. -/
structure FitsAs (rt : Runtime) (call : PrintfCall) (text : List WCHAR) : Prop where
  text_eq : call.text rt = some text
  length_lt : text.length < 1024
  noNul : 0 ∉ text
  head : startsPlain call.format = true → ∃ c ∈ text.head?, c < 128
  last : endsPlain call.format = true → ∃ c ∈ text.getLast?, c < 128

def Fits (rt : Runtime) (call : PrintfCall) : Prop := ∃ text, FitsAs rt call text

/-- A literal of the sources, given by its characters. -/
def wideChars (cs : List Char) : List WCHAR := cs.map fun c => UInt16.ofNat c.toNat

/-- Arguments of these types agree with the format, and its text fits. -/
def fitsOk (cs : List Char) (kinds : List Kind) : Bool :=
  (pieces none (wideChars cs)).any fun ps => (limit ps kinds).any (· < 1024)

/-- And its text ends with an ASCII character. -/
def lineOk (cs : List Char) (kinds : List Kind) : Bool :=
  (pieces none (wideChars cs)).any fun ps =>
    (limit ps kinds).any (· < 1024) && ps.getLast?.any Piece.isPlain

/-- Every call fits, and a text that may end within a surrogate pair is followed by one
that begins with an ASCII character. -/
inductive Printable (rt : Runtime) : List PrintfCall → Prop
  | nil : Printable rt []
  | ends {c : PrintfCall} {cs : List PrintfCall} (hc : Fits rt c) (he : endsPlain c.format = true)
      (hcs : Printable rt cs) : Printable rt (c::cs)
  | goesOn {c d : PrintfCall} {cs : List PrintfCall} (hc : Fits rt c) (hd : startsPlain d.format = true)
      (hcs : Printable rt (d::cs)) : Printable rt (c::d::cs)

variable {rt : Runtime} {format : List Char} {k : List Kind} {args : List Arg} {cs ds : List PrintfCall}

theorem Printable.append (h : Printable rt cs) (h' : Printable rt ds) : Printable rt (cs ++ ds) := by
  induction h with
  | nil => exact h'
  | ends hc he _ ih => exact .ends hc he ih
  | goesOn hc hd _ ih => exact .goesOn hc hd ih

theorem wide_ofList (cs : List Char) : wide (String.ofList cs) = wideChars cs := by
  simp [wide,wideChars]

theorem fits_of_limit {format : List WCHAR} {ps : List Piece} {n : ℕ}
    (hps : pieces none format = some ps) (hn : limit ps k = some n) (hlt : n < 1024)
    (hargs : List.Forall₂ Arg.Has args k) : Fits rt ⟨format,args⟩ := by
  obtain ⟨text,htext,hfilled⟩ := fill_of_limit rt hn hargs
  refine ⟨text,?_,hfilled.length_le.trans_lt hlt,hfilled.noNul,fun hp => ?_,fun hp => ?_⟩
  · simpa [PrintfCall.text,hps] using htext
  · simp only [startsPlain,hps,Option.any_some,Option.any_eq_true] at hp
    obtain ⟨p,hmem,hplain⟩ := hp
    exact hfilled.head p hmem hplain
  · simp only [endsPlain,hps,Option.any_some,Option.any_eq_true] at hp
    obtain ⟨p,hmem,hplain⟩ := hp
    exact hfilled.last p hmem hplain

theorem fits_of_ok (h : fitsOk format k = true) (hargs : List.Forall₂ Arg.Has args k) :
    Fits rt (lprintf (String.ofList format) args) := by
  simp only [fitsOk,Option.any_eq_true,decide_eq_true_eq] at h
  obtain ⟨ps,hps,n,hn,hlt⟩ := h
  rw [← wide_ofList] at hps
  exact fits_of_limit hps hn hlt hargs

theorem Printable.line (h : lineOk format k = true) (hargs : List.Forall₂ Arg.Has args k)
    (hcs : Printable rt cs) : Printable rt (lprintf (String.ofList format) args::cs) := by
  simp only [lineOk,Option.any_eq_true,Bool.and_eq_true,decide_eq_true_eq] at h
  obtain ⟨ps,hps,⟨n,hn,hlt⟩,p,hp,hplain⟩ := h
  rw [← wide_ofList] at hps
  refine .ends (fits_of_limit hps hn hlt hargs) ?_ hcs
  rw [endsPlain,lprintf,hps,Option.any_some,Option.any_eq_true]
  exact ⟨p,hp,hplain⟩

/-- A call with a text that can end anyhow, in front of an ASCII character. -/
theorem Printable.before (h : fitsOk format k = true)
    (hargs : List.Forall₂ Arg.Has args k) (hne : cs ≠ [])
    (hd : ∀ d ∈ cs.head?, startsPlain d.format = true) (hcs : Printable rt cs) :
    Printable rt (lprintf (String.ofList format) args::cs) := by
  obtain ⟨d,ds,rfl⟩ := List.exists_cons_of_ne_nil hne
  exact .goesOn (fits_of_ok h hargs) (hd d rfl) hcs

theorem Printable.single (h : lineOk format k = true) (hargs : List.Forall₂ Arg.Has args k) :
    Printable rt [lprintf (String.ofList format) args] := .line h hargs .nil

variable {s : StackAnswers} {arch a}

theorem Printable.optional {p : Prop} [Decidable p] (h : p → Printable rt cs)
    (h' : ¬p → Printable rt ds) : Printable rt (if p then cs else ds) := by
  split
  · next hp => exact h hp
  · next hp => exact h' hp

section File

open Utf ReportText

variable {us : List UInt16} {t : WideString} {chunks : List WideString}

end File

end ExceptionReport
end DrMingw
