import DrMingw.InstanceHistory

/-! The minidumps the loop writes: how many for a process, and whose context goes
into the exception information. -/
namespace DrMingw
namespace DebugLoop

/-- The calls that write a minidump, end a process or give up its symbols. -/
def Action.isDeed : Action → Bool
  | .createDumpFile .. | .MiniDumpWriteDump .. | .TerminateProcess .. | .SymCleanup _ => true
  | _ => false

def deeds (as : List Action) : List Action := as.filter Action.isDeed

/-- The exception information handed to `MiniDumpWriteDump`. -/
def Action.exceptionParam : Action → Option MinidumpException
  | .MiniDumpWriteDump _ _ _ _ x => x
  | _ => none

/-- Thread identifier, exception record and context are those of the thread `tid`. -/
def BelongsTo (a : Answers) (p : ProcessInfo) (tid : DWORD) (record : ExceptionRecord)
    (x : MinidumpException) : Prop :=
  x.ThreadId = tid ∧ x.ExceptionRecord = record ∧
    (p.Threads[tid]?).bind (getThreadContext a p.hProcess) = some x.ContextRecord

/-- What one turn passes to `MiniDumpWriteDump` about the exception. -/
def exceptionParams (o : DebugOptions) (s : LoopState) (d : Delivery) : List MinidumpException :=
  (turn o s d).2.filterMap (·.2.exceptionParam)

/-- A dump is due, and its file can be created. -/
def WritesDump (o : DebugOptions) (a : Answers) (pid : DWORD) (p : ProcessInfo) : Prop :=
  p.fDumpWritten = false ∧ (a.CreateFileW (dumpPath o pid)).isSome

@[simp] theorem deeds_nil : deeds [] = [] := rfl

@[simp] theorem deeds_append (as bs : List Action) : deeds (as ++ bs) = deeds as ++ deeds bs := by
  simp [deeds]

theorem deeds_cons (x : Action) (as : List Action) :
    deeds (x::as) = (if x.isDeed then [x] else []) ++ deeds as := by
  simp only [deeds,List.filter_cons]
  split <;> rfl

@[simp] theorem deeds_verbose (o : DebugOptions) (pid tid : DWORD) (u : DebugInfo)
    (image : Option (List WCHAR)) : deeds (verbose o pid tid u image) = [] := by
  simp only [verbose]
  split <;> rfl

@[simp] theorem deeds_dumpThread (a : Answers) (hProcess hThread : HANDLE) :
    deeds (dumpThread a hProcess hThread) = [] := by
  simp only [dumpThread]
  split <;> rfl

@[simp] theorem deeds_loadModule (a : Answers) (hProcess hFile : HANDLE)
    (image : Option (List WCHAR)) (base : DWORD64) :
    deeds (loadModule a hProcess hFile image base) = [] := by
  simp only [loadModule]
  split <;> rfl

/-- A dump is written unless one has been. -/
theorem deeds_writeDump (o : DebugOptions) (a : Answers) (pid : DWORD) (p : ProcessInfo)
    (x : Option MinidumpException) :
    deeds (writeDump o a pid p x).2 =
      if p.fDumpWritten then []
      else .createDumpFile pid (dumpPath o pid) ::
        match a.CreateFileW (dumpPath o pid) with
        | none => []
        | some hFile => [.MiniDumpWriteDump p.hProcess pid hFile
            (a.win64 && a.IsWow64Process p.hProcess) x] := by
  simp only [writeDump]
  split
  · rfl
  · cases a.CreateFileW (dumpPath o pid) <;> rfl

theorem deeds_signalBreakpoint (o : DebugOptions) (a : Answers) (p : ProcessInfo) :
    deeds (signalBreakpoint o a p).2 = [] := by
  simp only [signalBreakpoint]
  repeat' split
  all_goals rfl

theorem deeds_onFirstChance (o : DebugOptions) (a : Answers) (code : DWORD) (p : ProcessInfo) :
    deeds (onFirstChance o a code p).2.1 = [] := by
  simp only [onFirstChance]
  split
  · split <;> exact deeds_signalBreakpoint o a p
  · rfl

theorem deeds_dumpThreads_first (o : DebugOptions) (a : Answers) (pid tid : DWORD)
    (record : ExceptionRecord) (threads : List (DWORD × HANDLE)) (p : ProcessInfo) :
    deeds (dumpThreads o a pid tid record true threads p).2 = [] := by
  induction threads with
  | nil => rfl
  | cons th threads ih =>
    rw [dumpThreads]
    split
    · exact ih
    · split
      · exact ih
      · simpa [deeds_cons,Action.isDeed] using ih

theorem deeds_dumpThreads_written (o : DebugOptions) (a : Answers) (pid tid : DWORD)
    (record : ExceptionRecord) (threads : List (DWORD × HANDLE)) {p : ProcessInfo}
    (hp : p.fDumpWritten = true) :
    deeds (dumpThreads o a pid tid record false threads p).2 = [] := by
  induction threads with
  | nil => rfl
  | cons th threads ih =>
    have hw (x : Option MinidumpException) : writeDump o a pid p x = (p,[]) := by
      simp [writeDump,hp]
    rw [dumpThreads]
    split
    · exact ih
    · split
      · exact ih
      · simpa [deeds_cons,Action.isDeed,hw] using ih

/-- The dump of a second-chance report is that of the first thread with a context. -/
theorem deeds_dumpThreads (o : DebugOptions) (a : Answers) (pid tid : DWORD)
    (record : ExceptionRecord) (threads : List (DWORD × HANDLE)) (p : ProcessInfo) :
    deeds (dumpThreads o a pid tid record false threads p).2 =
      match firstContext a p.hProcess tid record.ExceptionCode threads with
      | none => []
      | some context => deeds (writeDump o a pid p (some ⟨tid,record,context⟩)).2 := by
  induction threads with
  | nil => rfl
  | cons th threads ih =>
    rw [firstContext_cons,dumpThreads]
    by_cases hs : th.1 ≠ tid ∧ dumpsAllThreads record.ExceptionCode = false
    · rw [if_pos hs,if_pos hs]
      exact ih
    · rw [if_neg hs,if_neg hs]
      cases hx : getThreadContext a p.hProcess th.2 with
      | none => exact ih
      | some context =>
        have hrest := deeds_dumpThreads_written o a pid tid record threads
          (p:=(writeDump o a pid p (some ⟨tid,record,context⟩)).1) (by simp [writeDump_record])
        simp [deeds_cons,Action.isDeed,hrest]

/-- A second-chance exception is dumped, if a context can be read, and terminated. -/
theorem deeds_onException (o : DebugOptions) (a : Answers) (pid tid : DWORD)
    (record : ExceptionRecord) (first fT : Bool) (p : ProcessInfo) :
    deeds (onException o a pid tid record first fT p).actions =
      if first then []
      else (match firstContext a p.hProcess tid record.ExceptionCode p.Threads.toList with
        | none => []
        | some context => deeds (writeDump o a pid p (some ⟨tid,record,context⟩)).2) ++
          [.TerminateProcess p.hProcess record.ExceptionCode] := by
  simp only [onException]
  cases first with
  | false => simp [deeds_cons,Action.isDeed,deeds_dumpThreads,dumpThreads_record]
  | true =>
    simp only [if_true]
    split <;> simp [deeds_cons,Action.isDeed,deeds_dumpThreads_first,deeds_onFirstChance]

theorem filterMap_deeds (as : List Action) :
    (deeds as).filterMap Action.exceptionParam = as.filterMap Action.exceptionParam := by
  induction as with
  | nil => rfl
  | cons x as ih =>
    rw [deeds_cons,List.filterMap_append,ih]
    cases x with
    | MiniDumpWriteDump hProcess pid hFile wow64Comment x => cases x <;> rfl
    | _ => rfl

/-- What a turn passes on is what its handler does. -/
theorem exceptionParams_eq (o : DebugOptions) (s : LoopState) (d : Delivery) :
    exceptionParams o s d =
      (deeds (handle o d s.fTerminating (s.g_Processes[d.dwProcessId]?.getD {})).actions).filterMap
        Action.exceptionParam := by
  have hc (t : DWORD) (as : List Action) :
      (as.map (t,·)).filterMap (·.2.exceptionParam) = as.filterMap Action.exceptionParam := by
    simp [List.filterMap_map]
  simp only [exceptionParams,turn,filterMap_deeds]
  split
  · rw [hc]
  · rw [hc,List.filterMap_append]
    exact List.append_nil _

/-- Unless all threads are reported, the context read is that of the raising thread. -/
theorem firstContext_own {a : Answers} {hProcess : HANDLE} {tid code : DWORD}
    {ts : ThreadInfoList} {context : CONTEXT} (hn : dumpsAllThreads code = false)
    (h : firstContext a hProcess tid code ts.toList = some context) :
    (ts[tid]?).bind (getThreadContext a hProcess) = some context := by
  obtain ⟨⟨t,hThread⟩,hm,hx⟩ := List.exists_of_findSome?_eq_some h
  have hg := Std.ExtTreeMap.mem_toList_iff_getElem?_eq_some.mp hm
  by_cases ht : t = tid
  · subst ht
    simpa [hg,hn] using hx
  · simp [ht,hn] at hx

/-- A thread reported whose context can be read provides one. -/
theorem firstContext_isSome {a : Answers} {hProcess : HANDLE} {tid : DWORD} (code : DWORD)
    {ts : ThreadInfoList} {context : CONTEXT}
    (h : (ts[tid]?).bind (getThreadContext a hProcess) = some context) :
    (firstContext a hProcess tid code ts.toList).isSome = true := by
  obtain ⟨hThread,ht,hx⟩ := Option.bind_eq_some_iff.mp h
  have hm := Std.ExtTreeMap.mem_toList_iff_getElem?_eq_some.mpr ht
  rw [firstContext,List.isSome_findSome?,List.any_eq_true]
  exact ⟨(tid,hThread),hm,by simp [hx]⟩

/-- The minidump that is written is about the exception it is given. -/
theorem exceptionParam_writeDump {o : DebugOptions} {a : Answers} {pid : DWORD} {p : ProcessInfo}
    (hw : WritesDump o a pid p) (x : MinidumpException) :
    (deeds (writeDump o a pid p (some x)).2).filterMap Action.exceptionParam = [x] := by
  have hnew := hw.1
  obtain ⟨hFile,hc⟩ := Option.isSome_iff_exists.mp hw.2
  rw [deeds_writeDump,hnew,hc]
  rfl

theorem exceptionParam_no_dump {o : DebugOptions} {a : Answers} {pid : DWORD} {p : ProcessInfo}
    (hw : ¬WritesDump o a pid p) (x : MinidumpException) :
    (deeds (writeDump o a pid p (some x)).2).filterMap Action.exceptionParam = [] := by
  rw [deeds_writeDump]
  cases hnew : p.fDumpWritten with
  | true => rfl
  | false =>
    have hc : a.CreateFileW (dumpPath o pid) = none := by
      by_contra hne
      exact hw ⟨hnew,Option.isSome_iff_ne_none.mpr hne⟩
    simp [hc,Action.exceptionParam]

/-- The record an event of the process `pid` finds. -/
def LoopState.recordOf (s : LoopState) (pid : DWORD) : ProcessInfo := s.g_Processes[pid]?.getD {}

variable (o : DebugOptions) (s : LoopState)

/-- The minidumps written about a second-chance exception, in any state of the loop, are
about its thread throughout exactly when none is written, or the report is of that
thread only, or the first thread in the order of identifiers whose context can be read
has the context of that thread. -/
theorem minidump_consistent_iff (a : Answers) (pid tid : DWORD) (record : ExceptionRecord) :
    (∀ x ∈ exceptionParams o s ⟨pid,tid,.EXCEPTION record false,a⟩,
      BelongsTo a (s.recordOf pid) tid record x) ↔
    (WritesDump o a pid (s.recordOf pid) → dumpsAllThreads record.ExceptionCode = true →
      firstContext a (s.recordOf pid).hProcess tid record.ExceptionCode
          (s.recordOf pid).Threads.toList =
        ((s.recordOf pid).Threads[tid]?).bind
          (getThreadContext a (s.recordOf pid).hProcess)) := by
  have hx : exceptionParams o s ⟨pid,tid,.EXCEPTION record false,a⟩ =
      (deeds (onException o a pid tid record false s.fTerminating
        (s.recordOf pid)).actions).filterMap Action.exceptionParam := exceptionParams_eq ..
  have hterm (h : HANDLE) (code : DWORD) :
      (Action.TerminateProcess h code).exceptionParam = none := rfl
  rw [hx,deeds_onException,if_neg Bool.false_ne_true,List.filterMap_append]
  generalize s.recordOf pid = p
  cases hf : firstContext a p.hProcess tid record.ExceptionCode p.Threads.toList with
  | none =>
    have hnone : (p.Threads[tid]?).bind (getThreadContext a p.hProcess) = none := by
      by_contra hne
      obtain ⟨context,hc⟩ := Option.ne_none_iff_exists'.mp hne
      have hs := firstContext_isSome record.ExceptionCode hc
      simp [hf] at hs
    simp [hnone,hterm]
  | some context =>
    have hown (hn : dumpsAllThreads record.ExceptionCode = false) := firstContext_own hn hf
    by_cases hw : WritesDump o a pid p
    · have hdump := exceptionParam_writeDump hw ⟨tid,record,context⟩
      cases hall : dumpsAllThreads record.ExceptionCode with
      | false => simp [hdump,hterm,BelongsTo,hown hall]
      | true => simp [hdump,hterm,BelongsTo,hw,eq_comm]
    · have hnil := exceptionParam_no_dump hw ⟨tid,record,context⟩
      simp [hnil,hterm,hw]

/-- Process 7, whose second thread reaches a breakpoint while both can be read. -/
def twoThreads : LoopState :=
  loopAfter { minidump := true }
    [⟨7,1,.CREATE_PROCESS 0 40 41 0x400000,{}⟩,⟨7,2,.CREATE_THREAD 42,{}⟩]

def twoContexts : Answers :=
  { GetThreadContext := fun h => some [h.toUInt64], CreateFileW := fun _ => some 50 }

/-- The dump names thread 2 and holds the context of thread 1. -/
theorem breakpoint_dump_mixed :
    ¬∀ x ∈ exceptionParams { minidump := true } twoThreads
        ⟨7,2,.EXCEPTION ⟨STATUS_BREAKPOINT,0,[]⟩ false,twoContexts⟩,
      BelongsTo twoContexts (twoThreads.recordOf 7) 2 ⟨STATUS_BREAKPOINT,0,[]⟩ x := by
  intro h
  have hx : (⟨2,⟨STATUS_BREAKPOINT,0,[]⟩,[41]⟩ : MinidumpException) ∈
      exceptionParams { minidump := true } twoThreads
        ⟨7,2,.EXCEPTION ⟨STATUS_BREAKPOINT,0,[]⟩ false,twoContexts⟩ := by decide
  have hb := (h _ hx).2.2
  revert hb
  decide

/-- A call of `writeDump` that gets past its flag. -/
def Action.isDumpCall : Action → Bool
  | .createDumpFile .. => true
  | _ => false

def Action.isTermination : Action → Bool
  | .TerminateProcess .. => true
  | _ => false

/-- The process exits, with a code above 255 or the code 3 of `abort`. -/
def DebugInfo.isAbnormalExit : DebugInfo → Bool
  | .EXIT_PROCESS code => isAbnormalExitCode code
  | _ => false

/-- How often a minidump is called for while the events are handled. -/
def dumpCalls (ds : List Delivery) : ℕ :=
  ((DebugMainLoop o).trace {} ds).countP (·.2.isDumpCall)

/-- `TerminateProcess` is called while the events are handled. -/
def terminates (ds : List Delivery) : Bool :=
  ((DebugMainLoop o).trace {} ds).any (·.2.isTermination)

/-- The whole life of one process, in events the waiting loop is given, with the
contexts of its live threads readable. -/
structure WholeProcess (pid : DWORD) (ds : List Delivery) : Prop where
  legal : LegalStream ds
  handled : Handled o ds
  own : ∀ d ∈ ds, d.dwProcessId = pid
  ends : ∃ pre d, ds = pre ++ [d] ∧ d.u.isExitProcess = true
  readable : Machine.AtEach (fun pre d => ∀ l, live pre d.dwProcessId = some l →
    ∀ tid h, l.threads tid = some h →
      (getThreadContext d.answers l.hProcess h).isSome = true) ds

section Proofs

variable {o} {d : Delivery} {ds : List Delivery}

/-- What an event makes the loop do to dump or end its process. -/
theorem deeds_handle (fT : Bool) (p : ProcessInfo) :
    deeds (handle o d fT p).actions =
      match d.u with
      | .EXCEPTION record first =>
        deeds (onException o d.answers d.dwProcessId d.dwThreadId record first fT p).actions
      | .EXIT_PROCESS code =>
        (if fT = false ∧ isAbnormalExitCode code = true then
          deeds (writeDump o d.answers d.dwProcessId p none).2
        else []) ++ [.SymCleanup none]
      | _ => [] := by
  cases hu : d.u with
  | EXCEPTION record first => simp [handle,hu]
  | CREATE_PROCESS hFile hProcess hThread base =>
    simp only [handle,hu,onCreateProcess]
    split <;> simp [deeds_cons,Action.isDeed]
  | EXIT_THREAD code =>
    simp only [handle,hu,onExitThread]
    split <;> simp
  | EXIT_PROCESS code =>
    simp only [handle,hu,onExitProcess]
    split <;> simp [deeds_cons,Action.isDeed]
  | LOAD_DLL hFile base => simp [handle,hu,onLoadDll]
  | OUTPUT_DEBUG_STRING data len =>
    simp only [handle,hu,onOutputDebugString]
    split <;> simp [deeds_cons,Action.isDeed]
  | CREATE_THREAD | UNLOAD_DLL | RIP | other => simp [handle,hu,deeds_cons,Action.isDeed]

theorem countP_deeds (as : List Action) :
    (deeds as).countP Action.isDumpCall = as.countP Action.isDumpCall := by
  induction as with
  | nil => rfl
  | cons x as ih =>
    rw [deeds_cons,List.countP_append,List.countP_cons,ih]
    cases x <;> simp [Action.isDeed,Action.isDumpCall,Nat.add_comm]

theorem any_deeds (as : List Action) :
    (deeds as).any Action.isTermination = as.any Action.isTermination := by
  induction as with
  | nil => rfl
  | cons x as ih =>
    rw [deeds_cons,List.any_append,List.any_cons,ih]
    cases x <;> simp [Action.isDeed,Action.isTermination]

theorem dumpCalls_writeDump (a : Answers) (pid : DWORD) (p : ProcessInfo)
    (x : Option MinidumpException) :
    (deeds (writeDump o a pid p x).2).countP Action.isDumpCall =
      if p.fDumpWritten then 0 else 1 := by
  rw [deeds_writeDump]
  cases p.fDumpWritten with
  | true => rfl
  | false => cases a.CreateFileW (dumpPath o pid) <;> rfl

theorem any_writeDump (a : Answers) (pid : DWORD) (p : ProcessInfo)
    (x : Option MinidumpException) :
    (deeds (writeDump o a pid p x).2).any Action.isTermination = false := by
  rw [deeds_writeDump]
  cases p.fDumpWritten with
  | true => rfl
  | false => cases a.CreateFileW (dumpPath o pid) <;> rfl

/-- A process is terminated exactly on a second-chance exception. -/
theorem any_handle (fT : Bool) (p : ProcessInfo) :
    (handle o d fT p).actions.any Action.isTermination = d.u.isSecondChance := by
  rw [← any_deeds,deeds_handle]
  cases hu : d.u with
  | EXCEPTION record first =>
    simp only [deeds_onException]
    cases first with
    | true => rfl
    | false => simp [DebugInfo.isSecondChance,Action.isTermination]
  | EXIT_PROCESS code =>
    simp only [DebugInfo.isSecondChance]
    split
    · simp [any_writeDump,Action.isTermination]
    · rfl
  | _ => rfl

@[simp] theorem continue_isDumpCall (pid tid status : DWORD) :
    (Action.ContinueDebugEvent pid tid status).isDumpCall = false := rfl

@[simp] theorem continue_isTermination (pid tid status : DWORD) :
    (Action.ContinueDebugEvent pid tid status).isTermination = false := rfl

theorem turn_dumpCalls (s : LoopState) (d : Delivery) :
    (turn o s d).2.countP (·.2.isDumpCall) =
      (handle o d s.fTerminating (s.recordOf d.dwProcessId)).actions.countP Action.isDumpCall := by
  simp only [turn,LoopState.recordOf]
  split <;> simp [List.countP_map,Function.comp_def]

theorem turn_terminates (s : LoopState) (d : Delivery) :
    (turn o s d).2.any (·.2.isTermination) = d.u.isSecondChance := by
  rw [← any_handle (o:=o) s.fTerminating (s.recordOf d.dwProcessId)]
  simp only [turn,LoopState.recordOf]
  split <;> simp [List.any_map,Function.comp_def]

theorem trace_concat (o : DebugOptions) (ds : List Delivery) (d : Delivery)
    (hw : (loopAfter o ds).control = .waiting) :
    (DebugMainLoop o).trace {} (ds ++ [d]) =
      (DebugMainLoop o).trace {} ds ++ (turn o (loopAfter o ds) d).2 := by
  have hs : (DebugMainLoop o).after {} ds = loopAfter o ds := rfl
  simp [Machine.trace_append,hs,emit_waiting hw]

/-- Over any handled stream the process is terminated iff there is a second chance. -/
theorem terminates_eq (h : Handled o ds) : terminates o ds = ds.any (·.u.isSecondChance) := by
  induction ds using List.reverseRecOn with
  | nil => rfl
  | append_singleton ds d ih =>
    obtain ⟨hh,hw⟩ := handled_concat.mp h
    have hi := ih hh
    simp only [terminates] at hi ⊢
    rw [trace_concat o ds d hw,List.any_append,hi,turn_terminates]
    simp

/-- Events of one process keep it alive from the first of them until it ends. -/
theorem live_of_own {pid : DWORD} (hlegal : LegalStream ds) (hown : ∀ d ∈ ds, d.dwProcessId = pid)
    (hne : ds ≠ []) (hend : ∀ d ∈ ds, d.u.isExitProcess = false) : (live ds pid).isSome = true := by
  cases ds using List.reverseRecOn with
  | nil => exact absurd rfl hne
  | append_singleton ds d =>
    obtain ⟨-,hd⟩ := Machine.along_concat.mp hlegal
    have hp : d.dwProcessId = pid := hown d (by simp)
    have hx := hend d (by simp)
    rw [live_concat_apply,if_pos hp.symm,← hp]
    cases hu : d.u with
    | CREATE_PROCESS hFile hProcess hThread base => simp [liveAfter,hu]
    | EXIT_PROCESS code => simp [hu,DebugInfo.isExitProcess] at hx
    | EXCEPTION | CREATE_THREAD | EXIT_THREAD | LOAD_DLL | UNLOAD_DLL | OUTPUT_DEBUG_STRING | RIP
    | other =>
      have hs := Legal.isSome hd (by simp [hu])
      rw [(carries_on (by simp [hu]) hx _ none).1,Option.isSome_map]
      exact hs

/-- The second-chance exception of a thread whose context can be read. -/
def ReadsContext (d : Delivery) (p : ProcessInfo) : Prop :=
  d.u.isSecondChance = true →
    ((p.Threads[d.dwThreadId]?).bind (getThreadContext d.answers p.hProcess)).isSome = true

/-- How often an event that does not end its process calls for a minidump. -/
theorem dumpCalls_handle {p : ProcessInfo} (hx : d.u.isExitProcess = false)
    (hr : ReadsContext d p) (fT : Bool) :
    (handle o d fT p).actions.countP Action.isDumpCall =
      if d.u.isSecondChance && !p.fDumpWritten then 1 else 0 := by
  rw [← countP_deeds,deeds_handle]
  cases hu : d.u with
  | EXCEPTION record first =>
    simp only [deeds_onException]
    cases first with
    | true => rfl
    | false =>
      obtain ⟨context,hc⟩ := Option.isSome_iff_exists.mp (hr (by simp [hu,DebugInfo.isSecondChance]))
      obtain ⟨context',hf⟩ := Option.isSome_iff_exists.mp
        (firstContext_isSome record.ExceptionCode hc)
      have ht (h : HANDLE) (code : DWORD) :
          (Action.TerminateProcess h code).isDumpCall = false := rfl
      have hd := dumpCalls_writeDump (o:=o) d.answers d.dwProcessId p
        (some ⟨d.dwThreadId,record,context'⟩)
      simp only [hf,Bool.false_eq_true,if_false,List.countP_append,hd,DebugInfo.isSecondChance]
      cases p.fDumpWritten <;> simp [ht]
  | EXIT_PROCESS code => simp [hu,DebugInfo.isExitProcess] at hx
  | _ => rfl

/-- How often the end of a process calls for a minidump. -/
theorem dumpCalls_exit (hx : d.u.isExitProcess = true) (fT : Bool) (p : ProcessInfo) :
    (handle o d fT p).actions.countP Action.isDumpCall =
      if !fT && d.u.isAbnormalExit && !p.fDumpWritten then 1 else 0 := by
  rw [← countP_deeds,deeds_handle]
  cases hu : d.u with
  | EXIT_PROCESS code =>
    have hab : (DebugInfo.EXIT_PROCESS code).isAbnormalExit = isAbnormalExitCode code := rfl
    have hs : Action.isDumpCall (.SymCleanup none) = false := rfl
    simp only [hab,List.countP_append]
    cases fT with
    | true => simp [hs]
    | false =>
      cases isAbnormalExitCode code with
      | false => simp [hs]
      | true =>
        simp only [and_self,if_true,dumpCalls_writeDump]
        cases p.fDumpWritten <;> simp [hs]
  | _ => simp [hu,DebugInfo.isExitProcess] at hx

/-- The flag an event leaves in the record of a live process. -/
theorem dumpWritten_handle {p p' : ProcessInfo}
    (hc : ∀ hFile hProcess hThread base, d.u ≠ .CREATE_PROCESS hFile hProcess hThread base)
    (hr : ReadsContext d p) (fT : Bool)
    (he : (handle o d fT p).record.entry (some p) = some p') :
    p'.fDumpWritten = (p.fDumpWritten || d.u.isSecondChance) := by
  cases hu : d.u with
  | CREATE_PROCESS hFile hProcess hThread base => exact absurd hu (hc _ _ _ _)
  | EXIT_PROCESS code => simp [handle,hu,onExitProcess,RecordChange.entry] at he
  | EXCEPTION record first =>
    simp only [handle,hu,onException_record,RecordChange.entry,Option.some_inj] at he
    subst he
    cases first with
    | true => simp [onFirstChance_record,DebugInfo.isSecondChance]
    | false =>
      obtain ⟨context,hc⟩ := Option.isSome_iff_exists.mp (hr (by simp [hu,DebugInfo.isSecondChance]))
      simp [firstContext_isSome _ hc,DebugInfo.isSecondChance]
  | OUTPUT_DEBUG_STRING data len =>
    simp only [handle,hu,onOutputDebugString] at he
    split at he <;>
    · obtain rfl : p = p' := by simpa [RecordChange.entry] using he
      simp [DebugInfo.isSecondChance]
  | CREATE_THREAD | EXIT_THREAD | LOAD_DLL | UNLOAD_DLL | RIP | other =>
    simp only [handle,hu,onExitThread,onLoadDll,RecordChange.entry,Option.some_inj] at he
    subst he
    simp [DebugInfo.isSecondChance]

/-- The number of calls and the flag go together while the process is alive. -/
structure DumpState (o : DebugOptions) (pid : DWORD) (ds : List Delivery) : Prop where
  calls : dumpCalls o ds = if o.minidump && ds.any (·.u.isSecondChance) then 1 else 0
  written : ∀ p, (loopAfter o ds).g_Processes[pid]? = some p →
    p.fDumpWritten = (!o.minidump || ds.any (·.u.isSecondChance))

theorem dumpCalls_concat (o : DebugOptions) (ds : List Delivery) (d : Delivery)
    (hw : (loopAfter o ds).control = .waiting) :
    dumpCalls o (ds ++ [d]) = dumpCalls o ds +
      (handle o d (loopAfter o ds).fTerminating
        ((loopAfter o ds).recordOf d.dwProcessId)).actions.countP Action.isDumpCall := by
  rw [dumpCalls,trace_concat o ds d hw,List.countP_append,turn_dumpCalls]
  rfl

theorem not_createProcess_of_isSome {t : LiveTable} (hd : Legal t d)
    (hl : (t d.dwProcessId).isSome = true) (hFile hProcess hThread : HANDLE) (base : DWORD64) :
    d.u ≠ .CREATE_PROCESS hFile hProcess hThread base := by
  intro hu
  have hn : t d.dwProcessId = none := by simpa [Legal,hu] using hd
  simp [hn] at hl

/-- The raising thread of a second-chance exception is live, so its context is read. -/
theorem readsContext_of_live {t : LiveTable} {l : LiveProcess} {es : List Delivery}
    {p : ProcessInfo} (hd : Legal t d) (hl : t d.dwProcessId = some l) (hr : Reflects l es p)
    (hread : ∀ tid h, l.threads tid = some h →
      (getThreadContext d.answers l.hProcess h).isSome = true) : ReadsContext d p := by
  intro hs
  cases hu : d.u with
  | EXCEPTION record first =>
    obtain ⟨l',hl',ht⟩ : ∃ l, t d.dwProcessId = some l ∧ (l.threads d.dwThreadId).isSome := by
      simpa [Legal,hu] using hd
    obtain rfl : l = l' := Option.some.inj (hl.symm.trans hl')
    obtain ⟨h,hh⟩ := Option.isSome_iff_exists.mp ht
    rw [hr.threads _ _ hh,Option.bind_some,hr.hProcess]
    exact hread _ _ hh
  | _ => simp [hu,DebugInfo.isSecondChance] at hs

variable {pid : DWORD}

theorem getElem?_concat (hw : (loopAfter o ds).control = .waiting) :
    (loopAfter o (ds ++ [d])).g_Processes[d.dwProcessId]? =
      (handle o d (loopAfter o ds).fTerminating
        ((loopAfter o ds).recordOf d.dwProcessId)).record.entry
          (loopAfter o ds).g_Processes[d.dwProcessId]? := by
  rw [loopAfter_concat,next_waiting hw,turn_getElem?,if_pos rfl]
  rfl

/-- The first event of a process calls for no minidump and sets the flag. -/
theorem dumpState_first (hd : Legal noProcess d) : DumpState o d.dwProcessId [d] := by
  have hw : (loopAfter o []).control = .waiting := rfl
  have hrec : (loopAfter o []).recordOf d.dwProcessId = {} := rfl
  have hg := getElem?_concat (d:=d) hw
  have hcalls := dumpCalls_concat o [] d hw
  rw [List.nil_append,hrec] at hg hcalls
  cases hu : d.u with
  | CREATE_PROCESS hFile hProcess hThread base =>
    rw [← countP_deeds,deeds_handle] at hcalls
    refine ⟨by rw [hcalls]; simp [hu,DebugInfo.isSecondChance,dumpCalls],fun p hq => ?_⟩
    rw [hg] at hq
    simp only [handle,hu,onCreateProcess_record,RecordChange.entry,Option.some_inj] at hq
    subst hq
    simp [createdRecord,hu,DebugInfo.isSecondChance]
  | EXCEPTION | CREATE_THREAD | EXIT_THREAD | EXIT_PROCESS | LOAD_DLL | UNLOAD_DLL
  | OUTPUT_DEBUG_STRING | RIP | other =>
    have hsome := Legal.isSome hd (by simp [hu])
    simp [noProcess] at hsome

/-- A further event of a live process keeps number and flag together. -/
theorem DumpState.concat {l : LiveProcess} (hs : DumpState o d.dwProcessId ds)
    (hlegal : LegalStream ds) (hh : Handled o ds) (hw : (loopAfter o ds).control = .waiting)
    (hd : Legal (live ds) d) (hx : d.u.isExitProcess = false)
    (hl : live ds d.dwProcessId = some l)
    (hread : ∀ tid h, l.threads tid = some h →
      (getThreadContext d.answers l.hProcess h).isSome = true) :
    DumpState o d.dwProcessId (ds ++ [d]) := by
  obtain ⟨p,es,hpr,-,hr⟩ := handled_record hlegal hh hl
  have hc := not_createProcess_of_isSome hd (Option.isSome_iff_exists.mpr ⟨l,hl⟩)
  have hctx := readsContext_of_live hd hl hr hread
  have hrec : (loopAfter o ds).recordOf d.dwProcessId = p := by simp [LoopState.recordOf,hpr]
  have hwr := hs.written p hpr
  have hg := getElem?_concat (d:=d) hw
  have hcalls := dumpCalls_concat o ds d hw
  have hany : (ds ++ [d]).any (·.u.isSecondChance) =
      (ds.any (·.u.isSecondChance) || d.u.isSecondChance) := by simp
  rw [hrec] at hg hcalls
  rw [dumpCalls_handle hx hctx,hs.calls,hwr] at hcalls
  refine ⟨?_,fun p' hq => ?_⟩
  · rw [hcalls,hany]
    cases o.minidump <;> cases ds.any (·.u.isSecondChance) <;>
      cases d.u.isSecondChance <;> rfl
  · rw [hg,hpr] at hq
    rw [dumpWritten_handle hc hctx _ hq,hwr,hany,Bool.or_assoc]

variable {pid : DWORD}

/-- What the loop has done for a process that has not ended yet. -/
theorem dumpState_of_live (hlegal : LegalStream ds) (h : Handled o ds)
    (hown : ∀ e ∈ ds, e.dwProcessId = pid) (hend : ∀ e ∈ ds, e.u.isExitProcess = false)
    (hread : Machine.AtEach (fun pre d => ∀ l, live pre d.dwProcessId = some l →
      ∀ tid h, l.threads tid = some h →
        (getThreadContext d.answers l.hProcess h).isSome = true) ds)
    (hne : ds ≠ []) : DumpState o pid ds := by
  induction ds using List.reverseRecOn with
  | nil => exact absurd rfl hne
  | append_singleton ds d ih =>
    obtain ⟨hh,hw⟩ := handled_concat.mp h
    obtain ⟨hlegal,hd⟩ := Machine.along_concat.mp hlegal
    obtain ⟨hread,hrd⟩ := Machine.atEach_concat.mp hread
    have hown' : ∀ e ∈ ds, e.dwProcessId = pid := fun e he => hown e (by simp [he])
    have hend' : ∀ e ∈ ds, e.u.isExitProcess = false := fun e he => hend e (by simp [he])
    obtain rfl : d.dwProcessId = pid := hown d (by simp)
    by_cases hds : ds = []
    · subst hds
      exact dumpState_first hd
    · obtain ⟨l,hl⟩ := Option.isSome_iff_exists.mp (live_of_own hlegal hown' hds hend')
      exact (ih hlegal hh hown' hend' hread hds).concat hlegal hh hw hd (hend d (by simp)) hl
        (hrd l hl)

theorem live_other {q : DWORD} (hown : ∀ e ∈ ds, e.dwProcessId = pid) (hq : q ≠ pid) :
    live ds q = none := by
  induction ds using List.reverseRecOn with
  | nil => rfl
  | append_singleton ds d ih =>
    have hp : q ≠ d.dwProcessId := by
      rw [hown d (by simp)]
      exact hq
    rw [live_concat_apply,if_neg hp]
    exact ih fun e he => hown e (by simp [he])

/-- The `EXIT_PROCESS` of the only process makes the loop return. -/
theorem not_waiting_of_exit (hlegal : LegalStream (ds ++ [d])) (h : Handled o (ds ++ [d]))
    (hown : ∀ e ∈ ds ++ [d], e.dwProcessId = pid) (hx : d.u.isExitProcess = true) :
    (loopAfter o (ds ++ [d])).control ≠ .waiting := by
  have hw := (handled_concat.mp h).2
  have hp : d.dwProcessId = pid := hown d (by simp)
  have hempty : (loopAfter o (ds ++ [d])).g_Processes.isEmpty = true := by
    rw [Std.ExtTreeMap.isEmpty_iff,Std.ExtTreeMap.eq_empty_iff_forall_not_mem]
    intro q hm
    rw [Std.ExtTreeMap.mem_iff_isSome_getElem?,handled_isSome hlegal h] at hm
    by_cases hq : q = pid
    · cases hu : d.u with
      | EXIT_PROCESS code => simp [live_concat_apply,hq,hp,liveAfter,hu] at hm
      | _ => simp [hu,DebugInfo.isExitProcess] at hx
    · simp [live_other hown hq] at hm
  rw [loopAfter_concat,next_waiting hw] at hempty ⊢
  simp only [turn] at hempty ⊢
  split at hempty
  · next he => simp [he]
  · next he => simp [he,handle_finishes,hx,hempty]

/-- Before the last event of a process it has not ended. -/
theorem exit_last (hlegal : LegalStream (ds ++ [d])) (h : Handled o (ds ++ [d]))
    (hown : ∀ e ∈ ds ++ [d], e.dwProcessId = pid) : ∀ e ∈ ds, e.u.isExitProcess = false := by
  intro e he
  by_contra hx
  obtain ⟨q,r,rfl⟩ := List.append_of_mem he
  have hs : (q ++ e::r) ++ [d] = (q ++ [e]) ++ (r ++ [d]) := by simp
  rw [hs] at hlegal h hown
  obtain ⟨y,ys,hy⟩ := List.exists_cons_of_ne_nil (show r ++ [d] ≠ [] by simp)
  have hwait : (loopAfter o (q ++ [e])).control = .waiting := by
    have ha : Handled o ((q ++ [e]) ++ (y::ys)) := hy ▸ h
    exact ha.at_split
  exact not_waiting_of_exit (Machine.along_append.mp hlegal).1 (Machine.along_append.mp h).1
    (fun e he => hown e (List.mem_append_left _ he)) (by simpa using hx) hwait

end Proofs

/-- The exit of a process is no exception. -/
theorem isSecondChance_exit {u : DebugInfo} (hx : u.isExitProcess = true) :
    u.isSecondChance = false := by
  cases u with
  | EXCEPTION record first => simp [DebugInfo.isExitProcess] at hx
  | _ => rfl

/-- Before the exit of a process there is no abnormal one. -/
theorem any_isAbnormalExit {ds : List Delivery} (h : ∀ e ∈ ds, e.u.isExitProcess = false) :
    ds.any (·.u.isAbnormalExit) = false := by
  rw [List.any_eq_false]
  intro e he
  have hxe := h e he
  cases hue : e.u with
  | EXIT_PROCESS code => simp [hue,DebugInfo.isExitProcess] at hxe
  | _ => simp [DebugInfo.isAbnormalExit]

/-- Over the whole life of a process a minidump is called for exactly once if minidumps
are enabled and it has a second-chance exception or exits abnormally, and never
otherwise; it is terminated iff it has a second-chance exception. -/
theorem minidump_exactly_once (pid : DWORD) (ds : List Delivery) (h : WholeProcess o pid ds) :
    dumpCalls o ds =
        (if o.minidump && (ds.any (·.u.isSecondChance) || ds.any (·.u.isAbnormalExit))
          then 1 else 0) ∧
      (terminates o ds = true ↔ ∃ d ∈ ds, d.u.isSecondChance = true) := by
  refine ⟨?_,by rw [terminates_eq h.handled,List.any_eq_true]⟩
  obtain ⟨pre,d,rfl,hx⟩ := h.ends
  have hown := h.own
  obtain ⟨hh,hw⟩ := handled_concat.mp h.handled
  have hend := exit_last h.legal h.handled hown
  obtain ⟨hlegal,hd⟩ := Machine.along_concat.mp h.legal
  have hown' : ∀ e ∈ pre, e.dwProcessId = pid := fun e he => hown e (by simp [he])
  have hp : d.dwProcessId = pid := hown d (by simp)
  have hsome := Legal.isSome hd (by
    intro hFile hProcess hThread base hu
    simp [hu,DebugInfo.isExitProcess] at hx)
  have hne : pre ≠ [] := by
    rintro rfl
    simp [Machine.after,noProcess] at hsome
  have hs := dumpState_of_live hlegal hh hown' hend (Machine.atEach_concat.mp h.readable).1 hne
  obtain ⟨l,hl⟩ := Option.isSome_iff_exists.mp hsome
  obtain ⟨p,es,hpr,-,-⟩ := handled_record hlegal hh hl
  have hrec : (loopAfter o pre).recordOf d.dwProcessId = p := by simp [LoopState.recordOf,hpr]
  have hwr := hs.written p (hp ▸ hpr)
  have hsc : (pre ++ [d]).any (·.u.isSecondChance) = pre.any (·.u.isSecondChance) := by
    simp [isSecondChance_exit hx]
  have hab : (pre ++ [d]).any (·.u.isAbnormalExit) = d.u.isAbnormalExit := by
    simp [any_isAbnormalExit hend]
  rw [dumpCalls_concat o pre d hw,hs.calls,hrec,dumpCalls_exit hx,handled_fTerminating hh,hwr,
    hsc,hab]
  cases o.minidump <;> cases pre.any (·.u.isSecondChance) <;> cases d.u.isAbnormalExit <;> rfl

/-- A crash of process 7 and its abnormal end. -/
def crashRun : List Delivery :=
  [⟨7,1,.CREATE_PROCESS 0 40 41 0x400000,twoContexts⟩,
    ⟨7,1,.EXCEPTION ⟨0xC0000005,0,[]⟩ false,twoContexts⟩,
    ⟨7,1,.EXIT_PROCESS 0xC0000005,twoContexts⟩]

theorem minidump_exactly_once_crashRun :
    WholeProcess { minidump := true } 7 crashRun ∧
      dumpCalls { minidump := true } crashRun = 1 := by
  have h : WholeProcess { minidump := true } 7 crashRun := by
    refine ⟨?_,?_,by simp [crashRun],⟨crashRun.take 2,_,rfl,rfl⟩,?_⟩
    · simp [LegalStream,crashRun,Machine.Along,Legal,Machine.next,liveMachine,liveAfter,noProcess,
        LiveProcess.observe]
    · exact ⟨rfl,by decide,by decide,trivial⟩
    · have hread (hProcess h : HANDLE) :
          (getThreadContext twoContexts hProcess h).isSome = true := rfl
      simp [crashRun,Machine.atEach_cons,Machine.atEach_nil,hread]
  exact ⟨h,(minidump_exactly_once { minidump := true } 7 crashRun h).1⟩

end DebugLoop
end DrMingw
