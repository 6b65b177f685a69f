import DrMingw.DebugEvents
import DrMingw.Machine

/-! `DebugMainLoop` event by event. A handler gets the record
`g_Processes[dwProcessId]` and says what becomes of it; the loop does the rest. -/
namespace DrMingw
namespace DebugLoop

/-- What handling an event does to the entry `g_Processes[dwProcessId]`. -/
inductive RecordChange
  /-- The entry is not looked up. -/
  | untouched
  /-- The entry exists afterwards, inserted by the lookup if need be. -/
  | store (p : ProcessInfo)
  | erase

structure Outcome where
  record : RecordChange
  fTerminating : Bool
  actions : List Action
  dwContinueStatus : DWORD := DBG_CONTINUE
  /-- The debugger itself exits. -/
  exits : Bool := false

def EXIT_FAILURE : ℕ := 1

def getThreadContext (a : Answers) (hProcess hThread : HANDLE) : Option CONTEXT :=
  if a.win64 && a.IsWow64Process hProcess then a.Wow64GetThreadContext hThread
  else a.GetThreadContext hThread

def loadModule (a : Answers) (hProcess hFile : HANDLE) (imageName : Option (List WCHAR))
    (lpBaseOfDll : DWORD64) : List Action :=
  .SymLoadModuleExW hProcess hFile imageName lpBaseOfDll ::
    (if hFile ≠ NULL ∧ a.deferred = false then [.CloseHandle hFile] else [])

/-- The file name passed on for an event's `hFile`. -/
def imageName (a : Answers) (hFile : HANDLE) : Option (List WCHAR) :=
  if hFile = NULL then none else a.GetFileNameFromHandle hFile

def dumpPath (o : DebugOptions) (dwProcessId : DWORD) : List WCHAR :=
  (match o.minidumpDir with
    | none => []
    | some dir => dir ++ wide "\\") ++ wide (toString dwProcessId.toNat) ++ wide ".dmp"

/-- At most one minidump per record: `fDumpWritten` is set before the file is created. -/
def writeDump (o : DebugOptions) (a : Answers) (dwProcessId : DWORD) (p : ProcessInfo)
    (exceptionParam : Option MinidumpException) : ProcessInfo × List Action :=
  if p.fDumpWritten then (p,[])
  else
    let path := dumpPath o dwProcessId
    ({ p with fDumpWritten := true },
      .createDumpFile dwProcessId path ::
        match a.CreateFileW path with
        | none => [.lprintf (.failedToWriteMinidump path)]
        | some hFile =>
          [.MiniDumpWriteDump p.hProcess dwProcessId hFile
              (a.win64 && a.IsWow64Process p.hProcess) exceptionParam,
            .CloseHandle hFile,
            .lprintf (if a.MiniDumpWriteDump p.hProcess then .minidumpWritten path
              else .failedToWriteMinidump path)])

/-- Abnormal termination yields all sorts of exit codes; `abort` exits with 3. -/
def isAbnormalExitCode (dwExitCode : DWORD) : Bool := dwExitCode > 255 || dwExitCode = 3

/-- What the first breakpoint of a process sets off: the attach event is
signalled and the thread named by the options resumed. -/
def signalBreakpoint (o : DebugOptions) (a : Answers) (p : ProcessInfo) :
    ProcessInfo × List Action :=
  let p := { p with fBreakpointSignalled := true }
  let signal : List Action :=
    if o.hEvent = NULL then [] else [.SetEvent o.hEvent,.CloseHandle o.hEvent]
  if o.dwThreadId = 0 then (p,signal)
  else
    let hThread := p.Threads[o.dwThreadId]?.getD NULL
    let resume : List Action := if hThread = NULL then [] else [.ResumeThread hThread]
    let resumed := hThread ≠ NULL ∧ a.ResumeThread hThread = true
    ({ p with Threads := p.Threads.insertIfNew o.dwThreadId NULL },
      signal ++ resume ++ if resumed then [] else [.lprintf (.failedToResume o.dwThreadId)])

/-- How a first-chance exception goes on: out of the switch, or to the report. -/
inductive Verdict
  | leave (dwContinueStatus : DWORD)
  | report (dwContinueStatus : DWORD)

/-- The filters after the breakpoint prologue. -/
def filterFirstChance (o : DebugOptions) (a : Answers) (code : DWORD) (p : ProcessInfo) :
    ProcessInfo × Verdict :=
  if code = STATUS_WX86_BREAKPOINT ∧ p.fWowBreakpointSignalled = false then
    ({ p with fWowBreakpointSignalled := true },.leave DBG_CONTINUE)
  else if code = THREAD_NAMING then (p,.leave DBG_CONTINUE)
  else if code = DBG_CONTROL_C ∨ code = DBG_CONTROL_BREAK then (p,.report DBG_CONTINUE)
  else if code = EXCEPTION_STACK_OVERFLOW ∧ a.isInsideWine = true then
    (p,.report DBG_EXCEPTION_NOT_HANDLED)
  else if o.first_chance = false then (p,.leave DBG_EXCEPTION_NOT_HANDLED)
  else (p,.report DBG_EXCEPTION_NOT_HANDLED)

def onFirstChance (o : DebugOptions) (a : Answers) (code : DWORD) (p : ProcessInfo) :
    ProcessInfo × List Action × Verdict :=
  if code = STATUS_BREAKPOINT ∧ p.fBreakpointSignalled = false then
    let r := signalBreakpoint o a p
    if o.breakpoint_flag = false then (r.1,r.2,.leave DBG_CONTINUE)
    else
      let f := filterFirstChance o a code r.1
      (f.1,r.2,f.2)
  else
    let f := filterFirstChance o a code p
    (f.1,[],f.2)

/-- The codes on which the stacks of all threads are dumped, not only the raising one. -/
def dumpsAllThreads (code : DWORD) : Bool :=
  code = STATUS_BREAKPOINT || code = STATUS_WX86_BREAKPOINT || code = DBG_CONTROL_C ||
    code = DBG_CONTROL_BREAK

/-- The thread loop of an exception report. -/
def dumpThreads (o : DebugOptions) (a : Answers) (pid tid : DWORD) (record : ExceptionRecord)
    (dwFirstChance : Bool) : List (DWORD × HANDLE) → ProcessInfo → ProcessInfo × List Action
  | [], p => (p,[])
  | (dwThreadId,hThread)::threads, p =>
    if dwThreadId ≠ tid ∧ dumpsAllThreads record.ExceptionCode = false then
      dumpThreads o a pid tid record dwFirstChance threads p
    else
      match getThreadContext a p.hProcess hThread with
      | none => dumpThreads o a pid tid record dwFirstChance threads p
      | some context =>
        let w := if dwFirstChance then (p,[])
          else writeDump o a pid p (some ⟨tid,record,context⟩)
        let r := dumpThreads o a pid tid record dwFirstChance threads w.1
        (r.1,.dumpStack p.hProcess hThread context :: (w.2 ++ r.2))

def verbose (o : DebugOptions) (pid tid : DWORD) (u : DebugInfo)
    (image : Option (List WCHAR)) : List Action :=
  if o.verbose_flag then [.lprintf (.verbose pid tid u image)] else []

def onException (o : DebugOptions) (a : Answers) (pid tid : DWORD) (record : ExceptionRecord)
    (dwFirstChance fTerminating : Bool) (p : ProcessInfo) : Outcome :=
  let trace := verbose o pid tid (.EXCEPTION record dwFirstChance) none
  let f := if dwFirstChance then onFirstChance o a record.ExceptionCode p
    else (p,[],.report DBG_EXCEPTION_NOT_HANDLED)
  match f.2.2 with
  | .leave status => ⟨.store f.1,fTerminating,trace ++ f.2.1,status,false⟩
  | .report status =>
    let r := dumpThreads o a pid tid record dwFirstChance f.1.Threads.toList f.1
    let terminate : List Action := if dwFirstChance then []
      else [.TerminateProcess r.1.hProcess record.ExceptionCode]
    ⟨.store r.1,fTerminating || !dwFirstChance,
      trace ++ f.2.1 ++ .dumpException f.1.hProcess record :: r.2 ++ terminate,status,false⟩

def onCreateProcess (o : DebugOptions) (a : Answers) (pid tid : DWORD)
    (hFile hProcess hThread : HANDLE) (lpBaseOfImage : DWORD64) (fTerminating : Bool)
    (p : ProcessInfo) : Outcome :=
  let image := imageName a hFile
  let trace := verbose o pid tid (.CREATE_PROCESS hFile hProcess hThread lpBaseOfImage) image
  let p := { p with
    hProcess := hProcess
    fDumpWritten := !o.minidump
    Threads := p.Threads.insert tid hThread }
  if a.InitializeSym hProcess = false then ⟨.store p,fTerminating,trace ++ [.exit EXIT_FAILURE],DBG_CONTINUE,true⟩
  else
    ⟨.store p,fTerminating,
      trace ++ .SymRegisterCallbackW64 hProcess :: loadModule a hProcess hFile image lpBaseOfImage,
      DBG_CONTINUE,false⟩

/-- The stack of one thread, if its context can be read. -/
def dumpThread (a : Answers) (hProcess hThread : HANDLE) : List Action :=
  match getThreadContext a hProcess hThread with
  | none => []
  | some context => [.dumpStack hProcess hThread context]

def onExitThread (o : DebugOptions) (a : Answers) (pid tid : DWORD) (dwExitCode : DWORD)
    (fTerminating : Bool) (p : ProcessInfo) : Outcome :=
  let trace := verbose o pid tid (.EXIT_THREAD dwExitCode) none
  let dump := if fTerminating = false ∧ isAbnormalExitCode dwExitCode = true then
      dumpThread a p.hProcess (p.Threads[tid]?.getD NULL)
    else []
  ⟨.store { p with Threads := p.Threads.erase tid },fTerminating,trace ++ dump,DBG_CONTINUE,false⟩

/-- The record is erased before its `hProcess` is read again for `SymCleanup`. -/
def onExitProcess (o : DebugOptions) (a : Answers) (pid tid : DWORD) (dwExitCode : DWORD)
    (fTerminating : Bool) (p : ProcessInfo) : Outcome :=
  let trace := verbose o pid tid (.EXIT_PROCESS dwExitCode) none
  let dump := if fTerminating = false ∧ isAbnormalExitCode dwExitCode = true then
      dumpThread a p.hProcess (p.Threads[tid]?.getD NULL) ++ (writeDump o a pid p none).2
    else []
  ⟨.erase,fTerminating,trace ++ dump ++ [.SymCleanup none],DBG_CONTINUE,false⟩

def onLoadDll (o : DebugOptions) (a : Answers) (pid tid : DWORD) (hFile : HANDLE)
    (lpBaseOfDll : DWORD64) (fTerminating : Bool) (p : ProcessInfo) : Outcome :=
  let image := imageName a hFile
  ⟨.store p,fTerminating,
    verbose o pid tid (.LOAD_DLL hFile lpBaseOfDll) image ++
      loadModule a p.hProcess hFile image lpBaseOfDll,DBG_CONTINUE,false⟩

/-- The bytes up to the terminator `readProcessString` puts behind what was read. -/
def readProcessString (a : Answers) (hProcess : HANDLE) (lpBaseAddress : DWORD64)
    (nSize : ℕ) : List CHAR :=
  match a.ReadProcessMemory hProcess lpBaseAddress nSize with
  | none => []
  | some bytes => bytes.takeWhile (· ≠ 0)

def onOutputDebugString (o : DebugOptions) (a : Answers) (pid tid : DWORD)
    (lpDebugStringData : DWORD64) (nDebugStringLength : UInt16) (fTerminating : Bool)
    (p : ProcessInfo) : Outcome :=
  let trace := verbose o pid tid (.OUTPUT_DEBUG_STRING lpDebugStringData nDebugStringLength) none
  if o.no_debug_string then ⟨.untouched,fTerminating,trace,DBG_CONTINUE,false⟩
  else
    let data := readProcessString a p.hProcess lpDebugStringData nDebugStringLength.toNat
    ⟨.store p,fTerminating,trace ++ [.lprintf (.debugString data)],DBG_CONTINUE,false⟩

/-- The switch of `DebugMainLoop`; `p` is `g_Processes[dwProcessId]`. -/
def handle (o : DebugOptions) (d : Delivery) (fTerminating : Bool) (p : ProcessInfo) : Outcome :=
  let pid := d.dwProcessId
  let tid := d.dwThreadId
  match d.u with
  | .EXCEPTION record first => onException o d.answers pid tid record first fTerminating p
  | .CREATE_THREAD hThread =>
    ⟨.store { p with Threads := p.Threads.insert tid hThread },fTerminating,
      verbose o pid tid d.u none,DBG_CONTINUE,false⟩
  | .CREATE_PROCESS hFile hProcess hThread base =>
    onCreateProcess o d.answers pid tid hFile hProcess hThread base fTerminating p
  | .EXIT_THREAD code => onExitThread o d.answers pid tid code fTerminating p
  | .EXIT_PROCESS code => onExitProcess o d.answers pid tid code fTerminating p
  | .LOAD_DLL hFile base => onLoadDll o d.answers pid tid hFile base fTerminating p
  | .UNLOAD_DLL base =>
    ⟨.store p,fTerminating,
      verbose o pid tid d.u none ++ [.SymUnloadModule64 p.hProcess base],DBG_CONTINUE,false⟩
  | .OUTPUT_DEBUG_STRING data len => onOutputDebugString o d.answers pid tid data len fTerminating p
  | .RIP => ⟨.untouched,fTerminating,verbose o pid tid d.u none,DBG_CONTINUE,false⟩
  | .other _ => ⟨.untouched,fTerminating,verbose o pid tid d.u none,DBG_CONTINUE,false⟩

inductive Control
  /-- In `WaitForDebugEvent`. -/
  | waiting
  /-- `DebugMainLoop` has returned `TRUE`. -/
  | returned
  /-- The debugger itself has exited. -/
  | exited
  deriving DecidableEq

structure LoopState where
  g_Processes : ProcessInfoList := ∅
  fTerminating : Bool := false
  control : Control := .waiting

def RecordChange.apply (g : ProcessInfoList) (pid : DWORD) : RecordChange → ProcessInfoList
  | .untouched => g
  | .store p => g.insert pid p
  | .erase => g.erase pid

/-- `fFinished` is set by the `EXIT_PROCESS` that empties `g_Processes`. -/
def RecordChange.finishes (g : ProcessInfoList) : RecordChange → Bool
  | .erase => g.isEmpty
  | _ => false

/-- One turn of the loop. Calls are tagged with the process whose event is handled. -/
def turn (o : DebugOptions) (s : LoopState) (d : Delivery) :
    LoopState × List (DWORD × Action) :=
  let pid := d.dwProcessId
  let r := handle o d s.fTerminating (s.g_Processes[pid]?.getD {})
  let g := r.record.apply s.g_Processes pid
  if r.exits then (⟨g,r.fTerminating,.exited⟩,r.actions.map (pid,·))
  else
    (⟨g,r.fTerminating,if r.record.finishes g then .returned else .waiting⟩,
      (r.actions ++ [Action.ContinueDebugEvent pid d.dwThreadId r.dwContinueStatus]).map (pid,·))

/-- The loop as a machine over the events it is given; once it has returned it
takes no more of them. -/
def DebugMainLoop (o : DebugOptions) : Machine LoopState Delivery (DWORD × Action) where
  step s d := if s.control = .waiting then turn o s d else (s,[])

end DebugLoop
end DrMingw
