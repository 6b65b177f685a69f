import Std.Data.ExtTreeMap
import DrMingw.Win32

/-! What `DebugMainLoop` reads and writes: debug events, the options, the
process and thread records, and the calls it makes. -/
namespace DrMingw
namespace DebugLoop

def STATUS_BREAKPOINT : DWORD := 0x80000003
def STATUS_WX86_BREAKPOINT : DWORD := 0x4000001F
def EXCEPTION_STACK_OVERFLOW : DWORD := 0xC00000FD
def DBG_CONTROL_C : DWORD := 0x40010005
def DBG_CONTROL_BREAK : DWORD := 0x40010008
/-- The exception by which a program names one of its threads. -/
def THREAD_NAMING : DWORD := 0x406D1388

def DBG_CONTINUE : DWORD := 0x00010002
def DBG_EXCEPTION_NOT_HANDLED : DWORD := 0x80010001

/-- A register image, as `GetThreadContext` fills it. -/
abbrev CONTEXT := List DWORD64

structure ExceptionRecord where
  ExceptionCode : DWORD
  ExceptionAddress : DWORD64 := 0
  ExceptionInformation : List DWORD64 := []
  deriving DecidableEq

/-- The options `DebugMainLoop` consults. -/
structure DebugOptions where
  breakpoint_flag : Bool := false
  verbose_flag : Bool := false
  first_chance : Bool := false
  minidump : Bool := false
  minidumpDir : Option (List WCHAR) := none
  hEvent : HANDLE := NULL
  dwThreadId : DWORD := 0
  no_debug_string : Bool := false

/-- `DEBUG_EVENT` by event code. `WaitForDebugEvent` reports debug strings in ANSI
only, which the loop asserts. -/
inductive DebugInfo
  | EXCEPTION (record : ExceptionRecord) (dwFirstChance : Bool)
  | CREATE_THREAD (hThread : HANDLE)
  | CREATE_PROCESS (hFile hProcess hThread : HANDLE) (lpBaseOfImage : DWORD64)
  | EXIT_THREAD (dwExitCode : DWORD)
  | EXIT_PROCESS (dwExitCode : DWORD)
  | LOAD_DLL (hFile : HANDLE) (lpBaseOfDll : DWORD64)
  | UNLOAD_DLL (lpBaseOfDll : DWORD64)
  | OUTPUT_DEBUG_STRING (lpDebugStringData : DWORD64) (nDebugStringLength : UInt16)
  | RIP
  | other (dwDebugEventCode : DWORD)
  deriving DecidableEq

/-- What the system answers to the calls made while one event is handled. -/
structure Answers where
  /-- The debugger is a 64-bit build. -/
  win64 : Bool := true
  isInsideWine : Bool := false
  IsWow64Process : HANDLE → Bool := fun _ => false
  GetThreadContext : HANDLE → Option CONTEXT := fun _ => none
  Wow64GetThreadContext : HANDLE → Option CONTEXT := fun _ => none
  /-- Whether `ResumeThread` succeeds. -/
  ResumeThread : HANDLE → Bool := fun _ => true
  InitializeSym : HANDLE → Bool := fun _ => true
  GetFileNameFromHandle : HANDLE → Option (List WCHAR) := fun _ => none
  /-- `SYMOPT_DEFERRED_LOADS` is among the symbol options. -/
  deferred : Bool := true
  /-- The dump file opened, if it could be. -/
  CreateFileW : List WCHAR → Option HANDLE := fun _ => none
  MiniDumpWriteDump : HANDLE → Bool := fun _ => true
  /-- The bytes read from the debuggee, if it could be read. -/
  ReadProcessMemory : HANDLE → DWORD64 → ℕ → Option (List CHAR) := fun _ _ _ => none

/-- A debug event together with the answers given while it is handled. -/
structure Delivery where
  dwProcessId : DWORD
  dwThreadId : DWORD
  u : DebugInfo
  answers : Answers := {}

/-- Thread identifiers with the `hThread` of their `THREAD_INFO`, in key order. -/
abbrev ThreadInfoList := Std.ExtTreeMap DWORD HANDLE

/-- `PROCESS_INFO`; the defaults are what `g_Processes[...]` inserts on a miss. -/
structure ProcessInfo where
  hProcess : HANDLE := NULL
  Threads : ThreadInfoList := ∅
  fBreakpointSignalled : Bool := false
  fWowBreakpointSignalled : Bool := false
  fDumpWritten : Bool := false

abbrev ProcessInfoList := Std.ExtTreeMap DWORD ProcessInfo

/-- The messages passed to `lprintf`, each with the arguments it formats. -/
inductive Line
  | verbose (dwProcessId dwThreadId : DWORD) (u : DebugInfo) (lpImageName : Option (List WCHAR))
  | failedToResume (dwThreadId : DWORD)
  | minidumpWritten (path : List WCHAR)
  | failedToWriteMinidump (path : List WCHAR)
  | debugString (data : List CHAR)
  deriving DecidableEq

/-- `MINIDUMP_EXCEPTION_INFORMATION`. -/
structure MinidumpException where
  ThreadId : DWORD
  ExceptionRecord : ExceptionRecord
  ContextRecord : CONTEXT
  deriving DecidableEq

/-- The calls made by the loop, by `TrapThread` and by `TimeOutCallback`, in order. -/
inductive Action
  | lprintf (line : Line)
  | SetEvent (h : HANDLE)
  | CloseHandle (h : HANDLE)
  | ResumeThread (hThread : HANDLE)
  | dumpException (hProcess : HANDLE) (record : ExceptionRecord)
  | dumpStack (hProcess hThread : HANDLE) (context : CONTEXT)
  /-- A call of `writeDump` that gets past its flag. -/
  | createDumpFile (dwProcessId : DWORD) (path : List WCHAR)
  | MiniDumpWriteDump (hProcess : HANDLE) (dwProcessId : DWORD) (hFile : HANDLE)
      (wow64Comment : Bool) (exceptionParam : Option MinidumpException)
  | TerminateProcess (hProcess : HANDLE) (uExitCode : DWORD)
  | TerminateProcessById (dwProcessId : DWORD)
  | SymRegisterCallbackW64 (hProcess : HANDLE)
  | SymLoadModuleExW (hProcess hFile : HANDLE) (imageName : Option (List WCHAR))
      (baseOfDll : DWORD64)
  | SymUnloadModule64 (hProcess : HANDLE) (baseOfDll : DWORD64)
  /-- `none` when the handle is read from a record no longer in `g_Processes`. -/
  | SymCleanup (hProcess : Option HANDLE)
  | SuspendThread (hThread : HANDLE)
  | exit (status : ℕ)
  /-- A failed assertion. -/
  | abort
  | ContinueDebugEvent (dwProcessId dwThreadId dwContinueStatus : DWORD)
  deriving DecidableEq

end DebugLoop
end DrMingw
