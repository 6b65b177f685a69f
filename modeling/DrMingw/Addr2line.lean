import DrMingw.CatchSegv
import DrMingw.Log

/-! `addr2line`: its options, and what it prints for the addresses that are its operands.
The offsets a report gives for frames without a symbol are such operands. -/
namespace DrMingw
namespace Addr2line

open GetOpt OptionScan Printf
open CatchSegv (int EXIT_FAILURE)

structure Options where
  debug : Bool := false
  szModule : Option (List WCHAR) := none
  functions : Bool := false
  demangle : Bool := false
  pretty : Bool := false

def getoptCall (posixlyCorrect : Bool) : GetOpt.Call where
  mode := .standard
  optstring := ⟨wide "?CDe:fHp",by decide⟩
  posixlyCorrect := posixlyCorrect

/-- The `switch` over what `getoptW` has returned. An error is the exit code, printed
with the usage. -/
def switch (o : Options) (opt : ℤ) (optarg : Option (List WCHAR)) : Except ℕ Options :=
  if opt = int 'C' then .ok { o with demangle := true }
  else if opt = int 'D' then .ok { o with debug := true }
  else if opt = int 'e' then .ok { o with szModule := optarg }
  else if opt = int 'f' then .ok { o with functions := true }
  else if opt = int 'H' then .error 0
  else if opt = int 'p' then .ok { o with pretty := true }
  else .error EXIT_FAILURE

/-- What the system and the symbol library answer. The lookups are taken to depend on the
address alone: the line record that `MgwHelp` keeps from one lookup to the next is left out. -/
structure Answers where
  /-- `LoadLibraryExW` with `LOAD_LIBRARY_AS_DATAFILE`; 0 if it fails. -/
  loadAsDatafile : List WCHAR → DWORD64
  /-- `LoadLibraryExW` with `DONT_RESOLVE_DLL_REFERENCES`. -/
  loadAsImage : List WCHAR → DWORD64
  InitializeSym : Bool
  SymFromAddr : DWORD64 → Option (List CHAR)
  UnDecorateSymbolName : List CHAR → Option (List CHAR)
  SymGetLineFromAddrW64 : DWORD64 → Option (List WCHAR × DWORD)

inductive Outcome
  | usage (exitCode : ℕ)
  | notLoaded (exitCode : ℕ)
  | notInitialized (exitCode : ℕ)
  /-- What is printed to `stdout`. -/
  | printed (calls : List PrintfCall)

variable (b : Build) (a : Answers)

def hModule (szModule : List WCHAR) : DWORD64 :=
  let h := if b.win64 then a.loadAsDatafile szModule else 0
  if h = 0 then b.uintPtr (a.loadAsImage szModule) else h

/-- The handle without the bits that tell how the module was loaded. -/
def BaseOfDll (szModule : List WCHAR) : DWORD64 := hModule b a szModule &&& ~~~3

def relAddr (arg : List WCHAR) : DWORD64 :=
  if arg.head? = some 0x30 ∧ arg[1]? = some 0x78 then CNumbers.wcstoull (arg.drop 2) 16
  else CNumbers.wcstoull arg 10

def fwprintf (format : String) (args : List Arg) : PrintfCall := ⟨wide format,args⟩

/-- The name that is printed for an address. -/
def function (o : Options) (dwAddr : DWORD64) : List CHAR :=
  match a.SymFromAddr dwAddr with
  | some Name => if o.demangle then (a.UnDecorateSymbolName Name).getD Name else Name
  | none => Log.narrow "??"

/-- What is printed for an address. -/
def answer (o : Options) (dwAddr : DWORD64) : List PrintfCall :=
  (if o.functions then
    [fwprintf "%hs" [.narrowString (function a o dwAddr)],
      fwprintf (if o.pretty then " at " else "\n") []]
  else []) ++
  [match a.SymGetLineFromAddrW64 dwAddr with
    | some (FileName,LineNumber) => fwprintf "%ls:%lu\n" [.wideString FileName,.dword LineNumber]
    | none => fwprintf "??:?\n" []]

/-- The loop over the operands. -/
def answers (o : Options) (szModule : List WCHAR) (operands : List (List WCHAR)) :
    List PrintfCall :=
  operands.flatMap fun arg => answer a o (b.uintPtr (BaseOfDll b a szModule + relAddr arg))

/-- What follows the options. -/
def resolve (o : Options) (operands : List (List WCHAR)) : Outcome :=
  match o.szModule with
  | none => .usage EXIT_FAILURE
  | some szModule =>
    if hModule b a szModule = 0 then .notLoaded EXIT_FAILURE
    else if a.InitializeSym then .printed (answers b a o szModule operands)
    else .notInitialized EXIT_FAILURE

/-- `fuel` bounds the calls of `getoptW`. -/
def wmain (posixlyCorrect : Bool) (argv : List (List WCHAR)) (fuel : ℕ) : Option Outcome :=
  let r := optionLoop (getoptCall posixlyCorrect) (fun o opt s => switch o opt s.optarg) fuel {}
    { argv := argv }
  match r with
  | none => none
  | some (.error exitCode,_) => some (.usage exitCode)
  | some (.ok o,s) => some (resolve b a o (s.argv.drop s.optind))

/-- The reading of the arguments behind the program's name. -/
def reading (posixlyCorrect : Bool) (args : List (List WCHAR)) : Reading WCHAR LongOption :=
  (getoptCall posixlyCorrect).grammar.scan ⟨[],args⟩

/-- What an event does to the options. -/
def react (o : Options) : Event WCHAR LongOption → Except ℕ Options
  | .option (.letter c) value => switch o c.toNat value
  | _ => .error EXIT_FAILURE

theorem switch_unknown (o : Options) (optarg : Option (List WCHAR)) :
    switch o unknown optarg = .error EXIT_FAILURE := by
  rw [switch,if_neg (by decide),if_neg (by decide),if_neg (by decide),if_neg (by decide),
    if_neg (by decide),if_neg (by decide)]

theorem switch_follows (posixlyCorrect : Bool) :
    Follows (getoptCall posixlyCorrect) (fun o opt s => switch o opt s.optarg) react Eq := by
  refine follows_of_eq fun o e r s hof hshows => ?_
  have hlong : ∀ opt : LongOption, ¬(getoptCall posixlyCorrect).grammar.IsLong opt :=
    fun opt h => by simpa [getoptCall] using isLong_mem h
  cases hshows with
  | letter _ ha => simp only [react,ha]
  | long => exact (hlong _ hof.1).elim
  | unknown => exact switch_unknown o _
  | missingLetter => exact switch_unknown o _
  | missingLong => exact (hlong _ hof.1).elim
  | excess => exact (hlong _ hof.1).elim
  | stray => exact switch_unknown o _
  | operand => rfl

/-- Every command line: the first event that stops the options decides, else the operands
are answered. -/
theorem wmain_eq (b : Build) (a : Answers) (posixlyCorrect : Bool) (program : List WCHAR)
    (args : List (List WCHAR)) (fuel : ℕ) :
    wmain b a posixlyCorrect (program::args)
        ((reading posixlyCorrect args).events.length + 1 + fuel) =
      some (match (reading posixlyCorrect args).events.foldlM react {} with
        | .error exitCode => .usage exitCode
        | .ok o => resolve b a o (reading posixlyCorrect args).operands) := by
  have hfollows := switch_follows posixlyCorrect
  have hstart := at_start (getoptCall posixlyCorrect) program args
  cases hall : (reading posixlyCorrect args).events.foldlM react {} with
  | ok o =>
    obtain ⟨o',s,hloop,rfl,hargv,hoptind⟩ :=
      optionLoop_reads hfollows (rfl : ({} : Options) = {}) hstart hall fuel
    have hloop' : optionLoop (getoptCall posixlyCorrect) (fun o opt s => switch o opt s.optarg)
        ((reading posixlyCorrect args).events.length + 1 + fuel) {} { argv := program::args } =
        some (.ok o',s) := hloop
    have hrest : s.argv.drop s.optind = (reading posixlyCorrect args).operands := by
      rw [hargv,hoptind]
      exact List.drop_left
    simp only [wmain,hloop',hrest]
  | error exitCode =>
    obtain ⟨s,hloop⟩ := optionLoop_eq hfollows hstart {} fuel
    have hloop' : optionLoop (getoptCall posixlyCorrect) (fun o opt s => switch o opt s.optarg)
        ((reading posixlyCorrect args).events.length + 1 + fuel) {} { argv := program::args } =
        some (.error exitCode,s) := by
      rw [← hall]
      exact hloop
    simp only [wmain,hloop']

/-- The text of an address with `0x` in front is the address. -/
theorem relAddr_hex (n : DWORD64) :
    relAddr (wide "0x" ++ Numerals.numeral CNumbers.wideDigits 16 n.toNat) = n := by
  have hdrop : (wide "0x" ++ Numerals.numeral CNumbers.wideDigits 16 n.toNat).drop 2 =
      Numerals.numeral CNumbers.wideDigits 16 n.toNat := rfl
  rw [relAddr,if_pos ⟨rfl,rfl⟩,hdrop]
  exact CNumbers.wcstoull_hex n

theorem mask_eq (n : DWORD64) : n &&& 0xFFFFFFFF = n.toUInt32.toUInt64 := by
  apply UInt64.toNat_inj.mp
  rw [UInt64.toNat_and]
  exact Nat.and_two_pow_sub_one_eq_mod n.toNat 32

theorem toUInt32_intPtr (n : DWORD64) :
    (n.toUInt32.toInt32.toInt64.toUInt64).toUInt32 = n.toUInt32 := by
  apply UInt32.toBitVec_inj.mp
  have h : (n.toUInt32.toInt32.toInt64.toUInt64).toUInt32.toBitVec =
      (n.toUInt32.toBitVec.signExtend 64).setWidth 32 := rfl
  rw [h]
  ext i hi
  have hlt : i < 64 := by omega
  rw [BitVec.getElem_setWidth,BitVec.getLsbD_signExtend]
  simp [hi,hlt]

/-- The sign of a base does not matter to pointers. -/
theorem uintPtr_offset (b : Build) (base AddrPC h : DWORD64) :
    b.uintPtr (base + (AddrPC - b.intPtr h)) = b.uintPtr (base + (AddrPC - h)) := by
  unfold Build.uintPtr Build.intPtr
  cases b.win64 with
  | true => rfl
  | false =>
    simp only [Bool.false_eq_true,if_false,mask_eq]
    rw [UInt64.toUInt32_add,UInt64.toUInt32_add,UInt64.toUInt32_sub,UInt64.toUInt32_sub,
      toUInt32_intPtr]

/-- The report gives the frame `line` as an offset in its module, with the text `t`
behind the `!`. -/
def GivenAs (rt : Runtime) (line : FrameLine) (t : List WCHAR) : Prop :=
  ∃ szModule offset, line.location = some (szModule,.offset offset) ∧
    (Log.locationCalls (.offset offset)).mapM (PrintfCall.text rt) = some [0x21::t]

theorem offset_text (rt : Runtime) (offset : DWORD64) :
    (Log.locationCalls (.offset offset)).mapM (PrintfCall.text rt) =
      some [0x21 :: (wide "0x" ++ Numerals.numeral CNumbers.wideDigits 16 offset.toNat)] := by
  have hpieces : pieces none (wide "!0x%I64x") = some [.literal 0x21,.literal 0x30,.literal 0x78,
      .directive { size := some 0x49 } .x] := rfl
  have htext : PrintfCall.text rt ⟨wide "!0x%I64x",[.dword64 offset]⟩ =
      some (0x21 :: (wide "0x" ++ Numerals.numeral CNumbers.wideDigits 16 offset.toNat)) := by
    rw [PrintfCall.text,hpieces]
    simp [fill,convert,Directive.is64,Directive.pad,wide]
  simp [Log.locationCalls,Log.lprintf,htext]

/-- A frame of a module in the process that crashed, as `printFrame` gets it. -/
structure Frame where
  MachineType : DWORD
  StackFrame : STACKFRAME64
  nudge : DWORD64

/-- The frames that a report gives as offsets are looked up where they were: as far from
the base the module is loaded at as they were from its base in the crashed process, in
the order of the operands, wherever the options stand. -/
theorem offsets_resolve (rt : Runtime) (b : Build) (s : StackAnswers) (a : Answers)
    (posixlyCorrect : Bool) (program : List WCHAR) {args : List (List WCHAR)} {o : Options}
    (ho : (reading posixlyCorrect args).events.foldlM react {} = .ok o) {szModule : List WCHAR}
    (hmodule : o.szModule = some szModule) (hloaded : hModule b a szModule ≠ 0)
    (hsym : a.InitializeSym = true) {frames : List Frame}
    (hframes : List.Forall₂ (fun f t =>
      GivenAs rt (printFrame b s f.MachineType f.StackFrame f.nudge) t) frames
      (reading posixlyCorrect args).operands) (fuel : ℕ) :
    wmain b a posixlyCorrect (program::args)
        ((reading posixlyCorrect args).events.length + 1 + fuel) =
      some (.printed (frames.flatMap fun f => answer a o (b.uintPtr (BaseOfDll b a szModule +
        (f.StackFrame.AddrPC - b.uintPtr (s.SymGetModuleBase64 f.StackFrame.AddrPC)))))) := by
  rw [wmain_eq,ho]
  simp only [resolve,hmodule,if_neg hloaded,hsym,if_true]
  congr 2
  rw [answers]
  generalize (reading posixlyCorrect args).operands = operands at hframes
  induction hframes with
  | nil => rfl
  | @cons f t frames operands hf _ ih =>
    rw [List.flatMap_cons,List.flatMap_cons,ih]
    congr 2
    obtain ⟨name,offset,hlocation,htext⟩ := hf
    rw [offset_text] at htext
    obtain rfl : wide "0x" ++ Numerals.numeral CNumbers.wideDigits 16 offset.toNat = t := by
      simpa using htext
    have hoffset : offset = f.StackFrame.AddrPC -
        b.intPtr (b.uintPtr (s.SymGetModuleBase64 f.StackFrame.AddrPC)) := by
      simp only [printFrame] at hlocation
      split at hlocation
      · cases hlocation
      · obtain ⟨path,-,heq⟩ := Option.map_eq_some_iff.mp hlocation
        obtain ⟨-,heq⟩ := Prod.mk.inj heq
        split at heq
        · cases heq
        · exact (Location.offset.inj heq).symm
    rw [relAddr_hex,hoffset,uintPtr_offset]

/-- A function without a symbol, `0x1234` behind the base of its module; the module is
loaded elsewhere to look it up. -/
def strippedStack : StackAnswers where
  isInsideWine := false
  StackWalk64 _ := none
  SymGetModuleBase64 _ := 0x400000
  GetModuleFileNameExW _ := some (wide "C:\\app.exe")
  GetSymFromAddr _ := none
  GetLineFromAddr _ := none

def symbolFile : Answers where
  loadAsDatafile _ := 0x10000002
  loadAsImage _ := 0
  InitializeSym := true
  SymFromAddr dwAddr := if dwAddr = 0x10001234 then some (Log.narrow "main") else none
  UnDecorateSymbolName _ := none
  SymGetLineFromAddrW64 _ := none

theorem reading_stripped : reading false [wide "0x1234",wide "-fe",wide "app.exe"] =
    ⟨[.option (.letter 0x66) none,.option (.letter 0x65) (some (wide "app.exe"))],
      [wide "-fe",wide "app.exe"],[wide "0x1234"],false⟩ := by
  have h₁ : (getoptCall false).grammar.read ⟨[],[wide "0x1234",wide "-fe",wide "app.exe"]⟩ =
      .step [wide "0x1234"] ⟨.option (.letter 0x66) none,[wide "-fe"],
        ⟨wide "e",[wide "app.exe"]⟩⟩ := rfl
  have h₂ : (getoptCall false).grammar.read ⟨wide "e",[wide "app.exe"]⟩ =
      .step [] ⟨.option (.letter 0x65) (some (wide "app.exe")),[wide "app.exe"],⟨[],[]⟩⟩ := rfl
  have h₃ : (getoptCall false).grammar.read ⟨[],[]⟩ = .done [] [] [] false := rfl
  rw [reading,Grammar.scan_step h₁,Grammar.scan_step h₂,Grammar.scan_done h₃]
  rfl

theorem offsets_resolve_stripped :
    wmain {} symbolFile false [wide "addr2line",wide "0x1234",wide "-fe",wide "app.exe"] 3 =
      some (.printed [fwprintf "%hs" [.narrowString (Log.narrow "main")],fwprintf "\n" [],
        fwprintf "??:?\n" []]) := by
  have ho : (reading false [wide "0x1234",wide "-fe",wide "app.exe"]).events.foldlM react {} =
      .ok { szModule := some (wide "app.exe"), functions := true } := by
    rw [reading_stripped]
    rfl
  have hframes : List.Forall₂ (fun (f : Frame) t =>
      GivenAs Log.plainRuntime (printFrame {} strippedStack f.MachineType f.StackFrame f.nudge) t)
      [⟨IMAGE_FILE_MACHINE_AMD64,⟨0x401234,0,0,fun _ => 0⟩,0⟩]
      (reading false [wide "0x1234",wide "-fe",wide "app.exe"]).operands := by
    rw [reading_stripped]
    exact .cons ⟨wide "app.exe",0x1234,rfl,offset_text Log.plainRuntime 0x1234⟩ .nil
  have h := offsets_resolve Log.plainRuntime {} strippedStack symbolFile false (wide "addr2line") ho
    rfl (by decide) rfl hframes 0
  rw [reading_stripped] at h
  exact h

end Addr2line
end DrMingw
