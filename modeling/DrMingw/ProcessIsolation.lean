import DrMingw.LiveProcesses

/-! What the loop reports about one process while it debugs others too, against
what it reports when given that process alone. -/
namespace DrMingw
namespace DebugLoop

/-- Exception reports, stack dumps, minidumps and terminations. -/
def Action.isReport : Action → Bool
  | .dumpException .. | .dumpStack .. | .createDumpFile .. | .MiniDumpWriteDump ..
  | .TerminateProcess .. => true
  | _ => false

def reports (as : List Action) : List Action := as.filter Action.isReport

/-- The reports that concern the process `pid`, in order. -/
def reportsOn (pid : DWORD) (trace : List (DWORD × Action)) : List Action :=
  reports ((trace.filter fun x => x.1 = pid).map (·.2))

/-- Reports on `pid` while `seg` is handled, the loop having handled `pre` before. -/
def jointReports (o : DebugOptions) (pre seg : List Delivery) (pid : DWORD) : List Action :=
  reportsOn pid ((DebugMainLoop o).trace (loopAfter o pre) seg)

/-- The events of one process. -/
def ownEvents (pid : DWORD) (ds : List Delivery) : List Delivery :=
  ds.filter fun d => d.dwProcessId = pid

/-- Reports on `pid` of a loop that is given the events of this process only. -/
def isolatedReports (o : DebugOptions) (seg : List Delivery) (pid : DWORD) : List Action :=
  reportsOn pid ((DebugMainLoop o).trace {} (ownEvents pid seg))

/-- Every event finds the loop in `WaitForDebugEvent`. -/
def Handled (o : DebugOptions) (ds : List Delivery) : Prop :=
  (DebugMainLoop o).Along (fun s _ => s.control = .waiting) {} ds

/-- No instance of the process is alive when `seg` begins, and none follows its
`EXIT_PROCESS` there: the events of `pid` in `seg` are those of one instance. -/
def OneInstance (pid : DWORD) (pre seg : List Delivery) : Prop :=
  live pre pid = none ∧ Machine.AtEach (fun q d => d.dwProcessId = pid →
    ∀ e ∈ ownEvents pid q, e.u.isExitProcess = false) seg

/-- A second-chance exception. -/
def DebugInfo.isSecondChance : DebugInfo → Bool
  | .EXCEPTION _ false => true
  | _ => false

/-- An abnormal exit with a stack or a minidump to be written. -/
def wouldDump (a : Answers) (tid : DWORD) (p : ProcessInfo) : DebugInfo → Bool
  | .EXIT_THREAD code =>
    isAbnormalExitCode code && (getThreadContext a p.hProcess (p.Threads[tid]?.getD NULL)).isSome
  | .EXIT_PROCESS code =>
    isAbnormalExitCode code &&
      ((getThreadContext a p.hProcess (p.Threads[tid]?.getD NULL)).isSome || !p.fDumpWritten)
  | _ => false

/-- When the event has something to dump for `pid` and a second-chance exception
has been handled, one of this instance of `pid` has. -/
def Unmasked (o : DebugOptions) (pid : DWORD) (pre q : List Delivery) (d : Delivery) : Prop :=
  d.dwProcessId = pid →
    wouldDump d.answers d.dwThreadId ((loopAfter o (pre ++ q)).g_Processes[pid]?.getD {}) d.u →
    (pre ++ q).any (·.u.isSecondChance) → (ownEvents pid q).any (·.u.isSecondChance)

@[simp] theorem reports_nil : reports [] = [] := rfl

@[simp] theorem reports_append (as bs : List Action) :
    reports (as ++ bs) = reports as ++ reports bs := by
  simp [reports]

theorem reportsOn_append (pid : DWORD) (t u : List (DWORD × Action)) :
    reportsOn pid (t ++ u) = reportsOn pid t ++ reportsOn pid u := by
  simp [reportsOn]

theorem reportsOn_other {pid q : DWORD} (h : q ≠ pid) (as : List Action) :
    reportsOn pid (as.map (q,·)) = [] := by
  simp [reportsOn,List.filter_map,Function.comp_def,h]

theorem reportsOn_own (pid : DWORD) (as : List Action) :
    reportsOn pid (as.map (pid,·)) = reports as := by
  simp [reportsOn,List.filter_map,Function.comp_def]

@[simp] theorem reports_SymCleanup (h : Option HANDLE) : reports [.SymCleanup h] = [] := rfl

@[simp] theorem reports_ContinueDebugEvent (pid tid status : DWORD) :
    reports [.ContinueDebugEvent pid tid status] = [] := rfl

theorem reports_dumpThread (a : Answers) (hProcess hThread : HANDLE) :
    reports (dumpThread a hProcess hThread) = [] ↔
      getThreadContext a hProcess hThread = none := by
  simp only [dumpThread]
  cases getThreadContext a hProcess hThread <;> simp [reports,Action.isReport]

theorem reports_writeDump (o : DebugOptions) (a : Answers) (pid : DWORD) (p : ProcessInfo)
    (x : Option MinidumpException) :
    reports (writeDump o a pid p x).2 = [] ↔ p.fDumpWritten = true := by
  simp only [writeDump]
  split
  · next h => simp [h]
  · next h => simp [reports,Action.isReport,h]

/-- The record an event leaves behind does not depend on `fTerminating`. -/
theorem handle_record (o : DebugOptions) (d : Delivery) (fT fT' : Bool) (p : ProcessInfo) :
    (handle o d fT p).record = (handle o d fT' p).record ∧
      (handle o d fT p).exits = (handle o d fT' p).exits := by
  cases hu : d.u with
  | EXCEPTION record first =>
    simp only [handle,hu,onException]
    split <;> exact ⟨rfl,rfl⟩
  | CREATE_PROCESS hFile hProcess hThread base =>
    simp only [handle,hu,onCreateProcess]
    split <;> exact ⟨rfl,rfl⟩
  | OUTPUT_DEBUG_STRING data len =>
    simp only [handle,hu,onOutputDebugString]
    split <;> exact ⟨rfl,rfl⟩
  | CREATE_THREAD | EXIT_THREAD | EXIT_PROCESS | LOAD_DLL | UNLOAD_DLL | RIP | other =>
    simp [handle,hu,onExitThread,onExitProcess,onLoadDll]

theorem handle_fTerminating (o : DebugOptions) (d : Delivery) (fT : Bool) (p : ProcessInfo) :
    (handle o d fT p).fTerminating = (fT || d.u.isSecondChance) := by
  cases hu : d.u with
  | EXCEPTION record first =>
    simp only [handle,hu,onException,DebugInfo.isSecondChance]
    cases first with
    | false => simp
    | true =>
      simp only [if_true]
      split <;> simp
  | CREATE_PROCESS hFile hProcess hThread base =>
    simp only [handle,hu,onCreateProcess,DebugInfo.isSecondChance]
    split <;> simp
  | OUTPUT_DEBUG_STRING data len =>
    simp only [handle,hu,onOutputDebugString,DebugInfo.isSecondChance]
    split <;> simp
  | CREATE_THREAD | EXIT_THREAD | EXIT_PROCESS | LOAD_DLL | UNLOAD_DLL | RIP | other =>
    simp [handle,hu,onExitThread,onExitProcess,onLoadDll,DebugInfo.isSecondChance]

/-- With `fTerminating` set the reports are the same, or there are none where
something would be dumped. -/
theorem handle_reports (o : DebugOptions) (d : Delivery) (p : ProcessInfo) (fT fT' : Bool)
    (h : fT' = true → fT = true) :
    (reports (handle o d fT p).actions).length ≤ (reports (handle o d fT' p).actions).length ∧
      (reports (handle o d fT p).actions = reports (handle o d fT' p).actions ↔
        (wouldDump d.answers d.dwThreadId p d.u = true → fT = true → fT' = true)) := by
  by_cases hsame : fT = fT'
  · subst hsame
    simp
  · obtain ⟨rfl,rfl⟩ : fT = true ∧ fT' = false := by
      cases fT <;> cases fT' <;> simp_all
    cases hu : d.u with
    | EXIT_THREAD code =>
      cases hc : isAbnormalExitCode code
      · simp [handle,hu,onExitThread,wouldDump,hc]
      · simp [handle,hu,onExitThread,wouldDump,hc,reports_dumpThread]
    | EXIT_PROCESS code =>
      cases hc : isAbnormalExitCode code
      · simp [handle,hu,onExitProcess,wouldDump,hc]
      · simp [handle,hu,onExitProcess,wouldDump,hc,reports_dumpThread,reports_writeDump]
    | EXCEPTION record first =>
      simp only [handle,hu,onException,wouldDump]
      split <;> simp
    | CREATE_PROCESS hFile hProcess hThread base =>
      simp only [handle,hu,onCreateProcess,wouldDump]
      split <;> simp
    | OUTPUT_DEBUG_STRING data len =>
      simp only [handle,hu,onOutputDebugString,wouldDump]
      split <;> simp
    | CREATE_THREAD | LOAD_DLL | UNLOAD_DLL | RIP | other =>
      simp [handle,hu,onLoadDll,wouldDump]

theorem turn_fTerminating (o : DebugOptions) (s : LoopState) (d : Delivery) :
    (turn o s d).1.fTerminating = (s.fTerminating || d.u.isSecondChance) := by
  rw [← handle_fTerminating o d s.fTerminating (s.g_Processes[d.dwProcessId]?.getD {}),turn]
  split <;> rfl

theorem turn_reports (o : DebugOptions) (s : LoopState) (d : Delivery) (pid : DWORD) :
    reportsOn pid (turn o s d).2 =
      if d.dwProcessId = pid then
        reports (handle o d s.fTerminating (s.g_Processes[pid]?.getD {})).actions
      else [] := by
  split_ifs with h
  · subst h
    simp only [turn]
    split <;> simp [reportsOn_own,-List.map_append]
  · simp only [turn]
    split <;> simp [reportsOn_other h,-List.map_append]

/-- The loop stops on an event only by exiting or on the last `EXIT_PROCESS`. -/
theorem turn_waiting (o : DebugOptions) (s : LoopState) (d : Delivery) :
    ((turn o s d).1.control = .waiting →
        (handle o d s.fTerminating (s.g_Processes[d.dwProcessId]?.getD {})).exits = false) ∧
      ((handle o d s.fTerminating (s.g_Processes[d.dwProcessId]?.getD {})).exits = false →
        d.u.isExitProcess = false → (turn o s d).1.control = .waiting) := by
  constructor
  · cases hx : (handle o d s.fTerminating (s.g_Processes[d.dwProcessId]?.getD {})).exits
    · simp
    · simp [turn,hx]
  · intro hx he
    simp [turn,hx,handle_finishes,he]

variable {o : DebugOptions} {ds pre seg : List Delivery} {d : Delivery} {pid : DWORD}

theorem handled_concat :
    Handled o (ds ++ [d]) ↔ Handled o ds ∧ (loopAfter o ds).control = .waiting :=
  Machine.along_concat

theorem handled_fTerminating (h : Handled o ds) :
    (loopAfter o ds).fTerminating = ds.any (·.u.isSecondChance) := by
  induction ds using List.reverseRecOn with
  | nil => rfl
  | append_singleton ds d ih =>
    obtain ⟨hh,hw⟩ := handled_concat.mp h
    simp [loopAfter_concat,next_waiting hw,turn_fTerminating,ih hh]

theorem handle_entry_isSome (fT : Bool) (p : ProcessInfo) {t : LiveTable}
    {q : Option ProcessInfo} (hq : q.isSome = (t d.dwProcessId).isSome) (hl : Legal t d) :
    ((handle o d fT p).record.entry q).isSome = (liveAfter (t d.dwProcessId) d).isSome := by
  cases hu : d.u with
  | CREATE_PROCESS hFile hProcess hThread base =>
    simp only [handle,hu,onCreateProcess,liveAfter]
    split <;> rfl
  | EXCEPTION record first =>
    obtain ⟨p',hr,-⟩ := onException_store o d.answers d.dwProcessId d.dwThreadId record first fT p
    have hs := hl.isSome (by simp [hu])
    simp [handle,hu,hr,RecordChange.entry,liveAfter,hs]
  | OUTPUT_DEBUG_STRING data len =>
    have hs := hl.isSome (by simp [hu])
    simp only [handle,hu,onOutputDebugString,liveAfter]
    split <;> simp [RecordChange.entry,hq,hs]
  | EXIT_PROCESS code => simp [handle,hu,onExitProcess,RecordChange.entry,liveAfter]
  | CREATE_THREAD | EXIT_THREAD | LOAD_DLL | UNLOAD_DLL | RIP | other =>
    have hs := hl.isSome (by simp [hu])
    simp [handle,hu,onExitThread,onLoadDll,RecordChange.entry,liveAfter,hq,hs]

/-- Whatever else goes wrong, the records are those of the live processes. -/
theorem handled_isSome (hlegal : LegalStream ds) (h : Handled o ds) (pid : DWORD) :
    (loopAfter o ds).g_Processes[pid]?.isSome = (live ds pid).isSome := by
  induction ds using List.reverseRecOn generalizing pid with
  | nil => rfl
  | append_singleton ds d ih =>
    obtain ⟨hh,hw⟩ := handled_concat.mp h
    obtain ⟨hlegal,hd⟩ := Machine.along_concat.mp hlegal
    rw [loopAfter_concat,next_waiting hw,turn_getElem?,live_concat]
    by_cases hp : pid = d.dwProcessId
    · subst hp
      simpa [Machine.next,liveMachine] using
        handle_entry_isSome _ _ (ih hlegal hh d.dwProcessId) hd
    · simp [Machine.next,liveMachine,hp,ih hlegal hh pid]

/-- The loop given one process only goes along with the loop given all of them. -/
structure Aligned (o : DebugOptions) (pid : DWORD) (pre seg : List Delivery) : Prop where
  handled : Handled o (ownEvents pid seg)
  record : (loopAfter o (pre ++ seg)).g_Processes[pid]? =
    (loopAfter o (ownEvents pid seg)).g_Processes[pid]?
  waiting : (loopAfter o (pre ++ seg)).control = .waiting →
    (∀ e ∈ ownEvents pid seg, e.u.isExitProcess = false) →
    (loopAfter o (ownEvents pid seg)).control = .waiting

theorem ownEvents_concat_own (h : d.dwProcessId = pid) :
    ownEvents pid (seg ++ [d]) = ownEvents pid seg ++ [d] := by
  simp [ownEvents,h]

theorem ownEvents_concat_other (h : d.dwProcessId ≠ pid) :
    ownEvents pid (seg ++ [d]) = ownEvents pid seg := by
  simp [ownEvents,h]

theorem oneInstance_concat :
    OneInstance pid pre (seg ++ [d]) ↔ OneInstance pid pre seg ∧
      (d.dwProcessId = pid → ∀ e ∈ ownEvents pid seg, e.u.isExitProcess = false) := by
  simp [OneInstance,Machine.atEach_concat,and_assoc]

theorem aligned_concat (h : Aligned o pid pre seg)
    (hw : (loopAfter o (pre ++ seg)).control = .waiting)
    (hone : d.dwProcessId = pid → ∀ e ∈ ownEvents pid seg, e.u.isExitProcess = false) :
    Aligned o pid pre (seg ++ [d]) := by
  by_cases hp : d.dwProcessId = pid
  · have hi := h.waiting hw (hone hp)
    have hrec := (handle_record o d (loopAfter o (pre ++ seg)).fTerminating
      (loopAfter o (ownEvents pid seg)).fTerminating
      ((loopAfter o (pre ++ seg)).g_Processes[pid]?.getD {}))
    refine ⟨?_,?_,?_⟩
    · rw [ownEvents_concat_own hp]
      exact handled_concat.mpr ⟨h.handled,hi⟩
    · subst hp
      rw [ownEvents_concat_own rfl,← List.append_assoc,loopAfter_concat,loopAfter_concat,
        next_waiting hw,next_waiting hi,turn_getElem?,turn_getElem?,if_pos rfl,if_pos rfl,
        hrec.1,h.record]
    · subst hp
      rw [ownEvents_concat_own rfl,← List.append_assoc,loopAfter_concat,loopAfter_concat,
        next_waiting hw,next_waiting hi]
      intro hw' he
      have hx := (turn_waiting o _ d).1 hw'
      rw [hrec.2,h.record] at hx
      exact (turn_waiting o _ d).2 hx (he d (by simp))
  · have hrec : (loopAfter o (pre ++ (seg ++ [d]))).g_Processes[pid]? =
        (loopAfter o (pre ++ seg)).g_Processes[pid]? := by
      have hp' : pid ≠ d.dwProcessId := fun he => hp he.symm
      rw [← List.append_assoc,loopAfter_concat,next_waiting hw,turn_getElem?,if_neg hp']
    refine ⟨?_,?_,?_⟩
    · rw [ownEvents_concat_other hp]
      exact h.handled
    · rw [ownEvents_concat_other hp,hrec]
      exact h.record
    · rw [ownEvents_concat_other hp]
      exact fun _ he => h.waiting hw he

theorem aligned_nil (hlegal : LegalStream pre) (hh : Handled o pre) (hp : live pre pid = none) :
    Aligned o pid pre [] := by
  refine ⟨trivial,?_,fun _ _ => rfl⟩
  have hs := handled_isSome hlegal hh pid
  rw [hp,Option.isSome_none,Option.isSome_eq_false_iff,Option.isNone_iff_eq_none] at hs
  rw [List.append_nil,hs]
  rfl

theorem jointReports_concat (hw : (loopAfter o (pre ++ seg)).control = .waiting) :
    jointReports o pre (seg ++ [d]) pid = jointReports o pre seg pid ++
      if d.dwProcessId = pid then
        reports (handle o d (loopAfter o (pre ++ seg)).fTerminating
          ((loopAfter o (pre ++ seg)).g_Processes[pid]?.getD {})).actions
      else [] := by
  have hs : (DebugMainLoop o).after (loopAfter o pre) seg = loopAfter o (pre ++ seg) :=
    (Machine.after_append ..).symm
  rw [← turn_reports,← emit_waiting hw]
  simp [jointReports,Machine.trace_append,reportsOn_append,hs]

theorem isolatedReports_concat_own (hp : d.dwProcessId = pid)
    (hw : (loopAfter o (ownEvents pid seg)).control = .waiting) :
    isolatedReports o (seg ++ [d]) pid = isolatedReports o seg pid ++
      reports (handle o d (loopAfter o (ownEvents pid seg)).fTerminating
        ((loopAfter o (ownEvents pid seg)).g_Processes[pid]?.getD {})).actions := by
  have hr := turn_reports o (loopAfter o (ownEvents pid seg)) d pid
  rw [if_pos hp,← emit_waiting hw] at hr
  rw [isolatedReports,ownEvents_concat_own hp,Machine.trace_append,reportsOn_append,← hr]
  simp [isolatedReports,loopAfter]

theorem append_eq_iff {α : Type} {a b c d : List α} (hab : a.length ≤ b.length)
    (hcd : c.length ≤ d.length) : a ++ c = b ++ d ↔ a = b ∧ c = d := by
  constructor
  · intro h
    have hl := congrArg List.length h
    simp only [List.length_append] at hl
    exact List.append_inj h (by omega)
  · rintro ⟨rfl,rfl⟩
    rfl

/-- Event by event the shared loop reports the same, or nothing where the event
is masked by the exception of another process. -/
theorem reports_run (hlegal : LegalStream pre) (hh : Handled o (pre ++ seg))
    (hone : OneInstance pid pre seg) :
    Aligned o pid pre seg ∧
      (jointReports o pre seg pid).length ≤ (isolatedReports o seg pid).length ∧
      (jointReports o pre seg pid = isolatedReports o seg pid ↔
        Machine.AtEach (Unmasked o pid pre) seg) := by
  induction seg using List.reverseRecOn with
  | nil =>
    refine ⟨aligned_nil hlegal (by simpa using hh) hone.1,Nat.le_refl _,?_⟩
    exact ⟨fun _ => Machine.atEach_nil _,fun _ => rfl⟩
  | append_singleton seg d ih =>
    rw [← List.append_assoc] at hh
    obtain ⟨hh,hw⟩ := handled_concat.mp hh
    obtain ⟨hone,hd⟩ := oneInstance_concat.mp hone
    obtain ⟨hal,hle,hiff⟩ := ih hh hone
    refine ⟨aligned_concat hal hw hd,?_⟩
    rw [jointReports_concat hw,Machine.atEach_concat,← hiff]
    by_cases hp : d.dwProcessId = pid
    · have hi := hal.waiting hw (hd hp)
      rw [isolatedReports_concat_own hp hi,if_pos hp,handled_fTerminating hh,
        handled_fTerminating hal.handled,hal.record]
      obtain ⟨hle',hiff'⟩ := handle_reports o d
        ((loopAfter o (ownEvents pid seg)).g_Processes[pid]?.getD {})
        ((pre ++ seg).any (·.u.isSecondChance)) ((ownEvents pid seg).any (·.u.isSecondChance))
        (fun h => by
          obtain ⟨e,he,hs⟩ := List.any_eq_true.mp h
          exact List.any_eq_true.mpr
            ⟨e,List.mem_append_right pre (List.mem_filter.mp he).1,hs⟩)
      rw [append_eq_iff hle hle',hiff',Unmasked,hal.record]
      refine ⟨?_,by simp [hp]⟩
      simp only [List.length_append]
      omega
    · have hiso : isolatedReports o (seg ++ [d]) pid = isolatedReports o seg pid := by
        rw [isolatedReports,ownEvents_concat_other hp,isolatedReports]
      simpa [hp,hiso,Unmasked] using hle

/-- The reports on a process are those of a loop given its events only, if and
only if none of its abnormal exits is masked by an exception of another process. -/
theorem reports_isolated_iff (o : DebugOptions) (pid : DWORD) (pre seg : List Delivery)
    (hlegal : LegalStream (pre ++ seg)) (hhandled : Handled o (pre ++ seg))
    (hone : OneInstance pid pre seg) :
    jointReports o pre seg pid = isolatedReports o seg pid ↔
      ∀ q d r, seg = q ++ d::r → Unmasked o pid pre q d :=
  (reports_run (Machine.along_append.mp hlegal).1 hhandled hone).2.2

/-- Process 8 crashes, then process 7 aborts. -/
def crashThenAbort : List Delivery :=
  [⟨7,1,.CREATE_PROCESS 0 40 41 0x400000,{}⟩,⟨8,2,.CREATE_PROCESS 0 50 51 0x400000,{}⟩,
    ⟨8,2,.EXCEPTION ⟨0xC0000005,0,[]⟩ false,{}⟩,⟨8,2,.EXIT_PROCESS 0xC0000005,{}⟩,
    ⟨7,1,.EXIT_PROCESS 3,{}⟩]

theorem crashThenAbort_legal : LegalStream crashThenAbort := by
  simp [LegalStream,crashThenAbort,Machine.Along,Legal,Machine.next,liveMachine,liveAfter,
    noProcess,LiveProcess.observe]

theorem crashThenAbort_handled : Handled { minidump := true } crashThenAbort := by
  simp only [Handled,crashThenAbort,Machine.Along]
  decide

theorem crashThenAbort_instance : OneInstance 7 [] crashThenAbort ∧
    OneInstance 8 [] crashThenAbort := by
  refine ⟨⟨rfl,?_⟩,⟨rfl,?_⟩⟩ <;> decide

theorem crashThenAbort_unmasked :
    Unmasked { minidump := true } 8 [] (crashThenAbort.take 3) ⟨8,2,.EXIT_PROCESS 0xC0000005,{}⟩ :=
  (reports_isolated_iff { minidump := true } 8 [] crashThenAbort crashThenAbort_legal
    crashThenAbort_handled crashThenAbort_instance.2).mp (by decide) (crashThenAbort.take 3)
    ⟨8,2,.EXIT_PROCESS 0xC0000005,{}⟩ (crashThenAbort.drop 4) rfl

/-- The minidump of process 7 is left out because process 8 has crashed. -/
theorem crash_masks_abort :
    ¬ ∀ (o : DebugOptions) (pid : DWORD) (pre seg : List Delivery),
      LegalStream (pre ++ seg) → Handled o (pre ++ seg) → OneInstance pid pre seg →
      jointReports o pre seg pid = isolatedReports o seg pid := by
  intro h
  exact absurd (h { minidump := true } 7 [] crashThenAbort crashThenAbort_legal
    crashThenAbort_handled crashThenAbort_instance.1) (by decide)

end DebugLoop
end DrMingw
