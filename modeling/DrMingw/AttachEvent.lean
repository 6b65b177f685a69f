import DrMingw.InstanceHistory

/-! What the loop does once for each process it gets hold of: at the first breakpoint it
signals the event of the options and resumes the thread they name. -/
namespace DrMingw
namespace DebugLoop

def Action.isStart : Action → Bool
  | .SetEvent _ | .ResumeThread _ => true
  | _ => false

def starts (as : List Action) : List Action := as.filter Action.isStart

/-- What a process instance is due at its first breakpoint. -/
def startUp (o : DebugOptions) (l : LiveProcess) : List Action :=
  let hThread := (l.threads o.dwThreadId).getD NULL
  (if o.hEvent = NULL then [] else [.SetEvent o.hEvent]) ++
    if o.dwThreadId = 0 ∨ hThread = NULL then [] else [.ResumeThread hThread]

/-- The table of live processes, with what is due to them. -/
def startMachine (o : DebugOptions) : Machine LiveTable Delivery (DWORD × Action) where
  step t d := (liveMachine.next t d,
    match t d.dwProcessId with
    | some l =>
      if d.u.isBreakpoint = true ∧ l.attached = false then
        (startUp o l).map (d.dwProcessId,·)
      else []
    | none => [])

/-- What is started while one more event is handled. -/
def startsAt (o : DebugOptions) (pre : List Delivery) (d : Delivery) : List (DWORD × Action) :=
  ((DebugMainLoop o).emit (loopAfter o pre) d).filter fun x => x.2.isStart

@[simp] theorem starts_nil : starts [] = [] := rfl

@[simp] theorem starts_append (as bs : List Action) :
    starts (as ++ bs) = starts as ++ starts bs := by
  simp [starts]

theorem starts_cons (x : Action) (as : List Action) :
    starts (x::as) = if x.isStart = true then x::starts as else starts as := List.filter_cons

@[simp] theorem starts_verbose (o : DebugOptions) (pid tid : DWORD) (u : DebugInfo)
    (image : Option (List WCHAR)) : starts (verbose o pid tid u image) = [] := by
  simp only [verbose]
  split <;> rfl

@[simp] theorem starts_loadModule (a : Answers) (hProcess hFile : HANDLE)
    (image : Option (List WCHAR)) (base : DWORD64) :
    starts (loadModule a hProcess hFile image base) = [] := by
  simp only [loadModule]
  split <;> rfl

@[simp] theorem starts_dumpThread (a : Answers) (hProcess hThread : HANDLE) :
    starts (dumpThread a hProcess hThread) = [] := by
  simp only [dumpThread]
  split <;> rfl

@[simp] theorem starts_writeDump (o : DebugOptions) (a : Answers) (pid : DWORD) (p : ProcessInfo)
    (x : Option MinidumpException) : starts (writeDump o a pid p x).2 = [] := by
  simp only [writeDump]
  split
  · rfl
  · cases a.CreateFileW (dumpPath o pid) <;> rfl

@[simp] theorem starts_dumpThreads (o : DebugOptions) (a : Answers) (pid tid : DWORD)
    (record : ExceptionRecord) (first : Bool) (threads : List (DWORD × HANDLE))
    (p : ProcessInfo) : starts (dumpThreads o a pid tid record first threads p).2 = [] := by
  induction threads generalizing p with
  | nil => rfl
  | cons th threads ih =>
    rw [dumpThreads]
    split
    · exact ih p
    · split
      · exact ih p
      · cases first <;> simp [starts_cons,Action.isStart,ih]

theorem starts_signalBreakpoint (o : DebugOptions) (a : Answers) (p : ProcessInfo) :
    starts (signalBreakpoint o a p).2 = startUp o p.toLive := by
  have hsignal : starts (if o.hEvent = NULL then [] else
      [.SetEvent o.hEvent,.CloseHandle o.hEvent]) =
      if o.hEvent = NULL then [] else [.SetEvent o.hEvent] := by
    split <;> rfl
  have hfailed (q : Prop) [Decidable q] :
      starts (if q then [] else [.lprintf (.failedToResume o.dwThreadId)]) = [] := by
    split <;> rfl
  simp only [signalBreakpoint,startUp,ProcessInfo.toLive]
  by_cases ht : o.dwThreadId = 0
  · simp only [ht,if_true,true_or,hsignal,List.append_nil]
  · simp only [ht,if_false,false_or,starts_append,hsignal,hfailed,List.append_nil]
    congr 1
    split <;> rfl

/-- The actions of a first breakpoint are all there is to start a process. -/
theorem starts_onFirstChance (o : DebugOptions) (a : Answers) (code : DWORD) (p : ProcessInfo) :
    starts (onFirstChance o a code p).2.1 =
      if code = STATUS_BREAKPOINT ∧ p.fBreakpointSignalled = false then startUp o p.toLive
      else [] := by
  simp only [onFirstChance]
  split
  · rw [← starts_signalBreakpoint o a p]
    split <;> rfl
  · rfl

theorem starts_onException (o : DebugOptions) (a : Answers) (pid tid : DWORD)
    (record : ExceptionRecord) (first fT : Bool) (p : ProcessInfo) :
    starts (onException o a pid tid record first fT p).actions =
      if first = true ∧ record.ExceptionCode = STATUS_BREAKPOINT ∧
          p.fBreakpointSignalled = false then startUp o p.toLive else [] := by
  simp only [onException]
  cases first with
  | false => simp [starts_cons,Action.isStart]
  | true =>
    simp only [if_true,true_and]
    rw [← starts_onFirstChance o a record.ExceptionCode p]
    split
    · simp
    · simp [starts_cons,Action.isStart]

theorem handle_starts (o : DebugOptions) (d : Delivery) (fT : Bool) (p : ProcessInfo) :
    starts (handle o d fT p).actions =
      if d.u.isBreakpoint = true ∧ p.fBreakpointSignalled = false then startUp o p.toLive
      else [] := by
  cases hu : d.u with
  | EXCEPTION record first =>
    simp only [handle,hu,starts_onException]
    cases first <;> simp [DebugInfo.isBreakpoint]
  | CREATE_PROCESS hFile hProcess hThread base =>
    simp only [handle,hu,onCreateProcess]
    split <;> simp [starts_cons,Action.isStart,DebugInfo.isBreakpoint]
  | OUTPUT_DEBUG_STRING data len =>
    simp only [handle,hu,onOutputDebugString]
    split <;> simp [starts_cons,Action.isStart,DebugInfo.isBreakpoint]
  | EXIT_THREAD code =>
    simp only [handle,hu,onExitThread]
    split <;> simp [DebugInfo.isBreakpoint]
  | EXIT_PROCESS code =>
    simp only [handle,hu,onExitProcess]
    split <;> simp [starts_cons,Action.isStart,DebugInfo.isBreakpoint]
  | CREATE_THREAD | LOAD_DLL | UNLOAD_DLL | RIP | other =>
    simp [handle,hu,onLoadDll,starts_cons,Action.isStart,DebugInfo.isBreakpoint]

variable {o : DebugOptions} {ds pre : List Delivery} {d : Delivery}

theorem turn_starts (o : DebugOptions) (s : LoopState) (d : Delivery) :
    (turn o s d).2.filter (fun x => x.2.isStart) =
      (starts (handle o d s.fTerminating (s.g_Processes[d.dwProcessId]?.getD {})).actions).map
        (d.dwProcessId,·) := by
  have hmap (as : List Action) : (as.map (d.dwProcessId,·)).filter (fun x => x.2.isStart) =
      (starts as).map (d.dwProcessId,·) := List.filter_map ..
  simp only [turn]
  split
  · exact hmap _
  · rw [hmap,starts_append]
    exact congrArg _ (List.append_nil _)

theorem startUp_congr (o : DebugOptions) {l l' : LiveProcess}
    (h : ∀ tid, l.threads tid = l'.threads tid) : startUp o l = startUp o l' := by
  simp only [startUp,h]

/-- A breakpoint of a live process finds its record. -/
theorem record_of_breakpoint (hlegal : LegalStream pre) (h : Handled o pre)
    (hd : Legal (live pre) d) (hb : d.u.isBreakpoint = true) :
    ∃ l es p, live pre d.dwProcessId = some l ∧
      (loopAfter o pre).g_Processes[d.dwProcessId]? = some p ∧ Reflects l es p := by
  cases hu : d.u with
  | EXCEPTION record first =>
    rw [Legal,hu] at hd
    obtain ⟨l,hl,-⟩ := hd
    obtain ⟨p,es,hp,-,hr⟩ := handled_record hlegal h hl
    exact ⟨l,es,p,hl,hp,hr⟩
  | _ =>
    rw [hu] at hb
    cases hb

/-- A loop that is in `WaitForDebugEvent` starts what is due. -/
theorem startsAt_eq (hlegal : LegalStream pre) (h : Handled o pre)
    (hw : (loopAfter o pre).control = .waiting) (hd : Legal (live pre) d) :
    startsAt o pre d = (startMachine o).emit (live pre) d := by
  rw [startsAt,emit_waiting hw,turn_starts,handle_starts]
  by_cases hb : d.u.isBreakpoint = true
  · obtain ⟨l,es,p,hl,hp,hr⟩ := record_of_breakpoint hlegal h hd hb
    have hflag : p.fBreakpointSignalled = l.attached := hr.breakpoint.trans hr.attached.symm
    simp only [Machine.emit,startMachine,hl,hp,Option.getD_some,hb,true_and,hflag]
    split
    · next hf =>
      have hsame : startUp o p.toLive = startUp o l := startUp_congr o (hr.unattached hf)
      rw [hsame]
    · rfl
  · cases hl : live pre d.dwProcessId with
    | none => simp [Machine.emit,startMachine,hl,hb]
    | some l => simp [Machine.emit,startMachine,hl,hb]

/-- Nothing is started but at the first breakpoint of a live process. -/
theorem emit_startMachine {t : LiveTable} (h : (startMachine o).emit t d ≠ []) :
    ∃ l, t d.dwProcessId = some l ∧ l.attached = false ∧ d.u.isBreakpoint = true := by
  simp only [Machine.emit,startMachine] at h
  split at h
  · next l hl =>
    split at h
    · next hb => exact ⟨l,hl,hb.2,hb.1⟩
    · exact absurd rfl h
  · exact absurd rfl h

theorem observe_attached {l : LiveProcess} (h : l.attached = true ∨ d.u.isBreakpoint = true) :
    (l.observe d).attached = true := by
  cases hu : d.u with
  | CREATE_THREAD hThread =>
    simpa [LiveProcess.observe,hu,LiveProcess.setThread,DebugInfo.isBreakpoint] using h
  | EXIT_THREAD code =>
    simpa [LiveProcess.observe,hu,LiveProcess.setThread,DebugInfo.isBreakpoint] using h
  | CREATE_PROCESS | EXCEPTION | EXIT_PROCESS | LOAD_DLL | UNLOAD_DLL | OUTPUT_DEBUG_STRING | RIP
  | other => simpa [LiveProcess.observe,hu] using h

/-- A process stays attached until it exits. -/
theorem attached_stays {pid : DWORD} {l : LiveProcess} {mid : List Delivery}
    (hlegal : LegalStream (pre ++ mid)) (hl : live pre pid = some l) (ha : l.attached = true)
    (hmid : ∀ e ∈ mid, e.dwProcessId = pid → e.u.isExitProcess = false) :
    ∃ l', live (pre ++ mid) pid = some l' ∧ l'.attached = true := by
  induction mid using List.reverseRecOn with
  | nil => exact ⟨l,by simpa using hl,ha⟩
  | append_singleton mid e ih =>
    rw [← List.append_assoc] at hlegal ⊢
    obtain ⟨hlegal,he⟩ := Machine.along_concat.mp hlegal
    obtain ⟨l',hl',ha'⟩ := ih hlegal fun e' he' => hmid e' (List.mem_append_left _ he')
    rw [live_concat_apply]
    by_cases hp : pid = e.dwProcessId
    · have hx := hmid e (by simp) hp.symm
      have hc : ∀ hFile hProcess hThread base,
          e.u ≠ .CREATE_PROCESS hFile hProcess hThread base := by
        intro hFile hProcess hThread base hu
        have hnone : live (pre ++ mid) e.dwProcessId = none := by
          simp only [Legal,hu] at he
          exact he
        rw [← hp,hl'] at hnone
        cases hnone
      rw [if_pos hp,hl',(carries_on hc hx (some l') none).1]
      exact ⟨l'.observe e,rfl,observe_attached (.inl ha')⟩
    · rw [if_neg hp]
      exact ⟨l',hl',ha'⟩

theorem handled_front {post : List Delivery} (h : Handled o (pre ++ post)) : Handled o pre :=
  (Machine.along_append.mp h).1

/-- The state of the loop before an event of a stream it handles. -/
theorem startsAt_of_split {post : List Delivery} (hlegal : LegalStream (pre ++ d::post))
    (h : Handled o (pre ++ d::post)) :
    startsAt o pre d = (startMachine o).emit (live pre) d :=
  startsAt_eq (Machine.along_append.mp hlegal).1 (handled_front h) (Machine.Along.at_split h)
    (Machine.Along.at_split hlegal)

theorem trace_starts (hlegal : LegalStream ds) (h : Handled o ds) :
    ((DebugMainLoop o).trace {} ds).filter (fun x => x.2.isStart) =
      (startMachine o).trace noProcess ds := by
  induction ds using List.reverseRecOn with
  | nil => rfl
  | append_singleton ds d ih =>
    have hat := startsAt_of_split hlegal h
    have hlive : (startMachine o).after noProcess ds = live ds := rfl
    rw [Machine.trace_append,Machine.trace_append,List.filter_append,hlive,
      ih (Machine.along_append.mp hlegal).1 (handled_front h),Machine.trace_cons,Machine.trace_cons,
      List.filter_append,← hat]
    rfl

/-- Two starts of one process identifier have its `EXIT_PROCESS` between them. -/
theorem exits_between {mid post : List Delivery} {d' : Delivery}
    (hlegal : LegalStream (pre ++ d::(mid ++ d'::post)))
    (h : Handled o (pre ++ d::(mid ++ d'::post)))
    (hpid : d'.dwProcessId = d.dwProcessId) (hstart : startsAt o pre d ≠ [])
    (hstart' : startsAt o (pre ++ d::mid) d' ≠ []) :
    ∃ e ∈ mid, e.dwProcessId = d.dwProcessId ∧ e.u.isExitProcess = true := by
  by_contra hno
  have hsplit : pre ++ d::(mid ++ d'::post) = (pre ++ d::mid) ++ d'::post := by simp
  rw [startsAt_of_split hlegal h] at hstart
  rw [hsplit] at hlegal h
  rw [startsAt_of_split hlegal h] at hstart'
  obtain ⟨l,hl,-,hb⟩ := emit_startMachine hstart
  obtain ⟨l',hl',hf,-⟩ := emit_startMachine hstart'
  have hsame : (pre ++ [d]) ++ mid = pre ++ d::mid := by simp
  have hfront : LegalStream ((pre ++ [d]) ++ mid) := by
    rw [hsame]
    exact (Machine.along_append.mp hlegal).1
  have hnext : live (pre ++ [d]) d.dwProcessId = some (l.observe d) := by
    have hc : ∀ hFile hProcess hThread base,
        d.u ≠ .CREATE_PROCESS hFile hProcess hThread base := by
      intro hFile hProcess hThread base hu
      rw [hu] at hb
      cases hb
    have hx : d.u.isExitProcess = false := by
      cases hu : d.u with
      | EXIT_PROCESS code =>
        rw [hu] at hb
        cases hb
      | _ => rfl
    rw [live_concat_apply,if_pos rfl,hl,(carries_on hc hx (some l) none).1]
    rfl
  obtain ⟨l'',hl'',ha⟩ := attached_stays hfront hnext (observe_attached (.inr hb))
    fun e he hp => by
      by_contra hx
      exact hno ⟨e,he,hp,by simpa using hx⟩
  rw [hsame,← hpid,hl'] at hl''
  obtain rfl := Option.some.inj hl''
  rw [ha] at hf
  cases hf

/-- What signals an event closes it at once. -/
theorem onException_closes {o : DebugOptions} (hEvent : o.hEvent ≠ NULL) (a : Answers)
    (pid tid : DWORD) {record : ExceptionRecord} (hcode : record.ExceptionCode = STATUS_BREAKPOINT)
    (fT : Bool) {p : ProcessInfo} (hp : p.fBreakpointSignalled = false) :
    [.SetEvent o.hEvent,.CloseHandle o.hEvent] <:+:
      (onException o a pid tid record true fT p).actions := by
  obtain ⟨rest,hsignal⟩ : ∃ rest, (signalBreakpoint o a p).2 =
      [.SetEvent o.hEvent,.CloseHandle o.hEvent] ++ rest := by
    simp only [signalBreakpoint,hEvent,if_false]
    split
    · exact ⟨[],(List.append_nil _).symm⟩
    · exact ⟨_,List.append_assoc ..⟩
  have hfirst : (onFirstChance o a record.ExceptionCode p).2.1 = (signalBreakpoint o a p).2 := by
    simp only [onFirstChance,hcode,hp,and_self,if_true]
    split <;> rfl
  simp only [onException,if_true,hfirst,hsignal]
  split
  · exact ⟨verbose o pid tid (.EXCEPTION record true) none,rest,by simp⟩
  · exact ⟨verbose o pid tid (.EXCEPTION record true) none,_,by
      simp only [List.append_assoc]
      rfl⟩

theorem start_closes (hEvent : o.hEvent ≠ NULL) {post : List Delivery}
    (hlegal : LegalStream (pre ++ d::post)) (h : Handled o (pre ++ d::post))
    (hstart : startsAt o pre d ≠ []) :
    [(d.dwProcessId,.SetEvent o.hEvent),(d.dwProcessId,.CloseHandle o.hEvent)] <:+:
      (DebugMainLoop o).emit (loopAfter o pre) d := by
  rw [startsAt_of_split hlegal h] at hstart
  obtain ⟨l,hl,hf,hb⟩ := emit_startMachine hstart
  obtain ⟨l',es,p,hl',hp,hr⟩ := record_of_breakpoint (Machine.along_append.mp hlegal).1
    (handled_front h) (Machine.Along.at_split hlegal) hb
  obtain rfl := Option.some.inj (hl.symm.trans hl')
  have hflag : p.fBreakpointSignalled = false := (hr.breakpoint.trans hr.attached.symm).trans hf
  have hw : (loopAfter o pre).control = .waiting := Machine.Along.at_split h
  cases hu : d.u with
  | EXCEPTION record first =>
    obtain ⟨rfl,hcode⟩ : first = true ∧ record.ExceptionCode = STATUS_BREAKPOINT := by
      cases first with
      | true => simpa [hu,DebugInfo.isBreakpoint] using hb
      | false => simp [hu,DebugInfo.isBreakpoint] at hb
    have hactions := onException_closes hEvent d.answers d.dwProcessId d.dwThreadId hcode
      (loopAfter o pre).fTerminating hflag
    have hmap := hactions.map (d.dwProcessId,·)
    rw [emit_waiting hw]
    simp only [turn,handle,hu,hp,Option.getD_some]
    split
    · exact hmap
    · rw [List.map_append]
      exact hmap.trans (List.prefix_append _ _).isInfix
  | _ =>
    rw [hu] at hb
    cases hb

/-- Over every run each process is started at its first breakpoint, and once in its life: the
event is signalled and closed at once, and the thread of the options resumed if the process
has it. A further process that is started signals a handle that is closed. -/
theorem started_once (hlegal : LegalStream ds) (h : Handled o ds) :
    ((DebugMainLoop o).trace {} ds).filter (fun x => x.2.isStart) =
        (startMachine o).trace noProcess ds ∧
      (∀ pre d mid d' post, ds = pre ++ d::(mid ++ d'::post) → d'.dwProcessId = d.dwProcessId →
        startsAt o pre d ≠ [] → startsAt o (pre ++ d::mid) d' ≠ [] →
        ∃ e ∈ mid, e.dwProcessId = d.dwProcessId ∧ e.u.isExitProcess = true) ∧
      ∀ pre d post, ds = pre ++ d::post → startsAt o pre d ≠ [] → o.hEvent ≠ NULL →
        [(d.dwProcessId,.SetEvent o.hEvent),(d.dwProcessId,.CloseHandle o.hEvent)] <:+:
          (DebugMainLoop o).emit (loopAfter o pre) d := by
  refine ⟨trace_starts hlegal h,?_,?_⟩
  · rintro pre d mid d' post rfl hpid hstart hstart'
    exact exits_between hlegal h hpid hstart hstart'
  · rintro pre d post rfl hstart hEvent
    exact start_closes hEvent hlegal h hstart

/-- Process 7 with the thread to be resumed, and process 8 without it. -/
def twoProcesses : List Delivery :=
  [⟨7,1,.CREATE_PROCESS 0 40 41 0x400000,{}⟩,⟨7,2,.CREATE_THREAD 42,{}⟩,
    ⟨8,3,.CREATE_PROCESS 0 50 51 0x400000,{}⟩,
    ⟨7,1,.EXCEPTION ⟨STATUS_BREAKPOINT,0,[]⟩ true,{}⟩,
    ⟨8,3,.EXCEPTION ⟨STATUS_BREAKPOINT,0,[]⟩ true,{}⟩,
    ⟨7,1,.EXCEPTION ⟨STATUS_BREAKPOINT,0,[]⟩ true,{}⟩]

/-- The event is signalled for both processes, and the thread resumed in its own. -/
theorem started_once_twoProcesses :
    ((DebugMainLoop { hEvent := 5, dwThreadId := 2 }).trace {} twoProcesses).filter
        (fun x => x.2.isStart) = [(7,.SetEvent 5),(7,.ResumeThread 42),(8,.SetEvent 5)] := by
  have hlegal : LegalStream twoProcesses := by
    simp [LegalStream,twoProcesses,Machine.Along,Legal,Machine.next,liveMachine,liveAfter,noProcess,
      LiveProcess.observe,LiveProcess.setThread,DebugInfo.isBreakpoint,Function.update]
  have hhandled : Handled { hEvent := 5, dwThreadId := 2 } twoProcesses := by
    simp only [Handled,twoProcesses,Machine.Along]
    decide
  rw [(started_once hlegal hhandled).1]
  decide

end DebugLoop
end DrMingw
