import DrMingw.BackTrace
import DrMingw.CStrings
import DrMingw.DebugEvents
import DrMingw.Printf
import DrMingw.SourceContext

/-! The calls of `lprintf` that make up a report: the exception, the registers, the stack
with excerpts of the sources, and the modules. -/
namespace DrMingw
namespace Log

open Printf
open DebugLoop (ExceptionRecord)

/-- A narrow string literal of the sources. -/
def narrow (s : String) : List CHAR := s.toList.map fun c => UInt8.ofNat c.toNat

def lprintf (format : String) (args : List Arg) : PrintfCall := ⟨wide format,args⟩

/-- The `%S` of a C locale. -/
def plainRuntime : Runtime where
  win64 := true
  toWide := List.map (·.toUInt16)
  length_le s := by simp
  noNul := map_toUInt16_noNul
  ascii _ _ := rfl

def EXCEPTION_ACCESS_VIOLATION : DWORD := 0xC0000005
def EXCEPTION_IN_PAGE_ERROR : DWORD := 0xC0000006
def STATUS_STACK_BUFFER_OVERRUN : DWORD := 0xC0000409

/-- The cases of `getExceptionString`. -/
def exceptionStrings : List (DWORD × String) :=
  [(EXCEPTION_ACCESS_VIOLATION,"Access Violation"),
    (EXCEPTION_IN_PAGE_ERROR,"In Page Error"),
    (0xC0000008,"Invalid Handle"),
    (0xC000001D,"Illegal Instruction"),
    (0xC0000025,"Cannot Continue"),
    (0xC0000026,"Invalid Disposition"),
    (0xC000008C,"Array bounds exceeded"),
    (0xC000008D,"Floating-point denormal operand"),
    (0xC000008E,"Floating-point division by zero"),
    (0xC000008F,"Floating-point inexact result"),
    (0xC0000090,"Floating-point invalid operation"),
    (0xC0000091,"Floating-point overflow"),
    (0xC0000092,"Floating-point stack check"),
    (0xC0000093,"Floating-point underflow"),
    (0xC0000094,"Integer division by zero"),
    (0xC0000095,"Integer overflow"),
    (0xC0000096,"Privileged instruction"),
    (0xC00000FD,"Stack Overflow"),
    (0xC0000194,"Possible deadlock condition"),
    (STATUS_STACK_BUFFER_OVERRUN,"Fast Fail"),
    (0xC000041D,"Fatal User Callback Exception"),
    (0xC0000420,"Assertion failure"),
    (0xE0434F4D,"CLR exception"),
    (0xE06D7363,"C++ exception handling exception"),
    (0x80000001,"Guard Page Exception"),
    (0x80000002,"Alignment Fault"),
    (0x80000003,"Breakpoint"),
    (0x80000004,"Single Step"),
    (0x4000001F,"Breakpoint"),
    (0x40000015,"Fast Application Exit"),
    (0x40010003,"Terminate Thread"),
    (0x40010004,"Terminate Process"),
    (0x40010005,"Control+C"),
    (0x40010008,"Control+Break"),
    (0x406D1388,"Thread Name Exception"),
    (1717,"Unknown Interface"), -- RPC_S_UNKNOWN_IF
    (1722,"Server Unavailable")] -- RPC_S_SERVER_UNAVAILABLE

def getExceptionString (ExceptionCode : DWORD) : Option (List CHAR) :=
  (exceptionStrings.lookup ExceptionCode).map narrow

/-- The switch on the first letter: `A`, `E`, `I`, `O` and `U`. -/
def article (lpcszException : List CHAR) : List CHAR :=
  if lpcszException.headD 0 ∈ ([0x41,0x45,0x49,0x4F,0x55] : List CHAR) then narrow "an"
  else narrow "a"

def szCodes : List String :=
  ["LEGACY_GS_VIOLATION","VTGUARD_CHECK_FAILURE","STACK_COOKIE_CHECK_FAILURE",
    "CORRUPT_LIST_ENTRY","INCORRECT_STACK","INVALID_ARG","GS_COOKIE_INIT","FATAL_APP_EXIT",
    "RANGE_CHECK_FAILURE","UNSAFE_REGISTRY_ACCESS"]

variable (b : Build) (s : StackAnswers)

/-- The base name of the module that holds an address, if it is known. -/
def moduleOf (a : DWORD64) : Option (List WCHAR) :=
  let hModule := b.uintPtr (s.SymGetModuleBase64 (b.intPtr a))
  if hModule = 0 then none else (s.GetModuleFileNameExW hModule).map getBaseNameW

/-- What an access violation tells of the access. -/
def accessCalls (record : ExceptionRecord) : List PrintfCall :=
  if record.ExceptionCode = EXCEPTION_ACCESS_VIOLATION ∨
      record.ExceptionCode = EXCEPTION_IN_PAGE_ERROR then
    match record.ExceptionInformation with
    | access::address::_ =>
      let lpszVerb := if access = 0 then "Reading from" else if access = 1 then "Writing to"
        else if access = 8 then "DEP violation at" else "Accessing"
      [lprintf " %S location %p" [.narrowString (narrow lpszVerb),.pointer address]]
    | _ => []
  else []

def fastFailCalls (record : ExceptionRecord) : List PrintfCall :=
  if record.ExceptionCode = STATUS_STACK_BUFFER_OVERRUN then
    match record.ExceptionInformation with
    | code::_ =>
      let uCode := code.toUInt32
      let szCode := szCodes[uCode.toNat]?.getD "INVALID_FAST_FAIL_CODE"
      [lprintf " with code %u (%S)" [.dword uCode,.narrowString (narrow szCode)]]
    | _ => []
  else []

/-- What the exception is said to be caused by. -/
def lpcszProcess : List WCHAR :=
  match s.GetModuleFileNameExW 0 with
  | some szModule => getBaseNameW szModule
  | none => wide "Application"

def exceptionCall (ExceptionCode : DWORD) : PrintfCall :=
  match getExceptionString ExceptionCode with
  | some lpcszException => lprintf " %S %S"
      [.narrowString (article lpcszException),.narrowString lpcszException]
  | none => lprintf " an Unknown [0x%lX] Exception" [.dword ExceptionCode]

/-- The module of an exception, and what is known of its cause. -/
def detailCalls (record : ExceptionRecord) : List PrintfCall :=
  (match moduleOf b s record.ExceptionAddress with
    | some name => [lprintf " in module %ls" [.wideString name]]
    | none => []) ++
  (accessCalls record ++ fastFailCalls record ++ [lprintf ".\n\n" []])

def dumpException (record : ExceptionRecord) : List PrintfCall :=
  lprintf "%ls caused" [.wideString (lpcszProcess s)] :: exceptionCall record.ExceptionCode ::
    lprintf " at location %p" [.pointer record.ExceptionAddress] :: detailCalls b s record

/-- The target the sources are built for. -/
inductive Arch
  | i386 | amd64 | arm64
  deriving DecidableEq

def Arch.build : Arch → Build
  | .i386 => { win64 := false }
  | .amd64 | .arm64 => { win64 := true }

/-- `WOW64_CONTEXT`, which is also the `CONTEXT` of a 32-bit build. -/
structure WOW64_CONTEXT where
  ContextFlags : DWORD
  (Eax Ebx Ecx Edx Esi Edi Eip Esp Ebp EFlags : DWORD)
  (SegCs SegSs SegDs SegEs SegFs SegGs : DWORD)

structure M128A where
  High : DWORD64
  Low : DWORD64

structure AMD64_CONTEXT where
  ContextFlags : DWORD
  (Rax Rbx Rcx Rdx Rsi Rdi R8 R9 R10 R11 R12 R13 R14 R15 Rip Rsp Rbp : DWORD64)
  EFlags : DWORD
  (SegCs SegSs SegDs SegEs SegFs SegGs : UInt16)
  Xmm : Fin 16 → M128A

structure ARM64_CONTEXT where
  ContextFlags : DWORD
  X : Fin 29 → DWORD64
  (Pc Sp Fp : DWORD64)

inductive ThreadContext
  | wow64 (pContext : WOW64_CONTEXT)
  | amd64 (pContext : AMD64_CONTEXT)
  | arm64 (pContext : ARM64_CONTEXT)

/-- The registers the first frame is made of. -/
def ThreadContext.context : ThreadContext → Context
  | .wow64 c => .i386 c.Eip c.Esp c.Ebp
  | .amd64 c => .amd64 c.Rip c.Rsp c.Rbp
  | .arm64 c => .arm64 c.Pc c.Sp c.Fp

/-- The part is in the context if it shares a bit with the flags. -/
def has (ContextFlags part : DWORD) : Bool := ContextFlags &&& part ≠ 0

def locationCalls : Location → List PrintfCall
  | .symbol szSymName offset line =>
    lprintf "!%S+0x%lx" [.narrowString szSymName,.dword offset] ::
      (match line with
      | some (szFileName,dwLineNumber) =>
        [lprintf "  [%ls:%ld]" [.wideString szFileName,.dword dwLineNumber]]
      | none => [])
  | .offset a => [lprintf "!0x%I64x" [.dword64 a]]

/-- What the system answers about the version of a file. -/
structure VersionAnswers where
  GetFileVersionInfoSizeW : DWORD
  GetFileVersionInfoW : Bool
  /-- `dwFileVersionMS` and `dwFileVersionLS`. -/
  VerQueryValueW : Option (DWORD × DWORD)

structure MODULEENTRY32W where
  modBaseAddr : DWORD64
  modBaseSize : DWORD
  szExePath : List WCHAR

end Log
end DrMingw
