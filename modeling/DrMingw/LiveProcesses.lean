import DrMingw.DebugLoop

/-! Legal debug-event streams, the processes they keep alive, and the proof that
`g_Processes` is exactly that table after every event. -/
namespace DrMingw
namespace DebugLoop

/-- A live process instance, as its own events describe it. -/
@[ext] structure LiveProcess where
  hProcess : HANDLE
  threads : DWORD → Option HANDLE
  /-- A first-chance breakpoint has been reported. -/
  attached : Bool

/-- The live process instances by process identifier. -/
abbrev LiveTable := DWORD → Option LiveProcess

def noProcess : LiveTable := fun _ => none

def LiveProcess.setThread (l : LiveProcess) (tid : DWORD) (h : Option HANDLE) : LiveProcess :=
  { l with threads := Function.update l.threads tid h }

/-- A first-chance breakpoint. -/
def DebugInfo.isBreakpoint : DebugInfo → Bool
  | .EXCEPTION record true => record.ExceptionCode = STATUS_BREAKPOINT
  | _ => false

/-- What an event says about the process it comes from. -/
def LiveProcess.observe (l : LiveProcess) (d : Delivery) : LiveProcess :=
  match d.u with
  | .CREATE_THREAD hThread => l.setThread d.dwThreadId (some hThread)
  | .EXIT_THREAD _ => l.setThread d.dwThreadId none
  | u => { l with attached := l.attached || u.isBreakpoint }

/-- The process instance an event leaves behind under its process identifier. -/
def liveAfter (l : Option LiveProcess) (d : Delivery) : Option LiveProcess :=
  match d.u with
  | .CREATE_PROCESS _ hProcess hThread _ =>
    some ⟨hProcess,Function.update (fun _ => none) d.dwThreadId (some hThread),false⟩
  | .EXIT_PROCESS _ => none
  | _ => l.map (·.observe d)

/-- The table as a machine over the stream. -/
def liveMachine : Machine LiveTable Delivery Empty where
  step t d := (Function.update t d.dwProcessId (liveAfter (t d.dwProcessId) d),[])

/-- The processes live once the events have been reported. -/
def live (ds : List Delivery) : LiveTable := liveMachine.after noProcess ds

/-- A process instance begins with `CREATE_PROCESS`, a further thread with
`CREATE_THREAD`, and every other event comes from a live thread. -/
def Legal (t : LiveTable) (d : Delivery) : Prop :=
  match d.u with
  | .CREATE_PROCESS .. => t d.dwProcessId = none
  | .CREATE_THREAD _ => ∃ l, t d.dwProcessId = some l ∧ l.threads d.dwThreadId = none
  | _ => ∃ l, t d.dwProcessId = some l ∧ (l.threads d.dwThreadId).isSome

def LegalStream (ds : List Delivery) : Prop := liveMachine.Along Legal noProcess ds

/-- The thread named by the options is live at the first breakpoint of a process. -/
def NamesLiveThread (o : DebugOptions) (t : LiveTable) (d : Delivery) : Prop :=
  d.u.isBreakpoint = true → o.dwThreadId = 0 ∨
    ∀ l, t d.dwProcessId = some l → l.attached = false → (l.threads o.dwThreadId).isSome

def InitialisesSymbols (d : Delivery) : Prop := ∀ h, d.answers.InitializeSym h = true

/-- The live process a record stands for. -/
def ProcessInfo.toLive (p : ProcessInfo) : LiveProcess :=
  ⟨p.hProcess,fun tid => p.Threads[tid]?,p.fBreakpointSignalled⟩

def liveOf (g : ProcessInfoList) : LiveTable := fun pid => (g[pid]?).map ProcessInfo.toLive

theorem liveOf_insert (g : ProcessInfoList) (pid : DWORD) (p : ProcessInfo) :
    liveOf (g.insert pid p) = Function.update (liveOf g) pid (some p.toLive) := by
  funext q
  by_cases h : q = pid
  · subst h; simp [liveOf]
  · have h' : pid ≠ q := fun he => h he.symm
    simp [liveOf,Std.ExtTreeMap.getElem?_insert,h,h']

theorem liveOf_erase (g : ProcessInfoList) (pid : DWORD) :
    liveOf (g.erase pid) = Function.update (liveOf g) pid none := by
  funext q
  by_cases h : q = pid
  · subst h; simp [liveOf]
  · have h' : pid ≠ q := fun he => h he.symm
    simp [liveOf,Std.ExtTreeMap.getElem?_erase,h,h']

theorem liveOf_eq_noProcess {g : ProcessInfoList} : liveOf g = noProcess ↔ g.isEmpty = true := by
  rw [Std.ExtTreeMap.isEmpty_iff,Std.ExtTreeMap.eq_empty_iff_forall_not_mem]
  constructor
  · intro h pid hm
    have hp := congrFun h pid
    rw [Std.ExtTreeMap.mem_iff_isSome_getElem?] at hm
    simp only [liveOf,noProcess,Option.map_eq_none_iff] at hp
    simp [hp] at hm
  · intro h
    funext pid
    simp [liveOf,noProcess,h pid]

theorem writeDump_toLive (o : DebugOptions) (a : Answers) (pid : DWORD) (p : ProcessInfo)
    (x : Option MinidumpException) : (writeDump o a pid p x).1.toLive = p.toLive := by
  simp only [writeDump]
  split <;> rfl

theorem dumpThreads_toLive (o : DebugOptions) (a : Answers) (pid tid : DWORD)
    (record : ExceptionRecord) (first : Bool) (threads : List (DWORD × HANDLE))
    (p : ProcessInfo) :
    (dumpThreads o a pid tid record first threads p).1.toLive = p.toLive := by
  induction threads generalizing p with
  | nil => rfl
  | cons th threads ih =>
    simp only [dumpThreads]
    split
    · exact ih p
    · split
      · exact ih p
      · rw [ih]
        cases first <;> simp [writeDump_toLive]

theorem filterFirstChance_toLive (o : DebugOptions) (a : Answers) (code : DWORD)
    (p : ProcessInfo) : (filterFirstChance o a code p).1.toLive = p.toLive := by
  simp only [filterFirstChance]
  repeat' split
  all_goals rfl

/-- The prologue inserts no thread when the options name a live one. -/
theorem signalBreakpoint_toLive (o : DebugOptions) (a : Answers) (p : ProcessInfo)
    (h : o.dwThreadId = 0 ∨ (p.toLive.threads o.dwThreadId).isSome) :
    (signalBreakpoint o a p).1.toLive = { p.toLive with attached := true } := by
  simp only [signalBreakpoint]
  by_cases h0 : o.dwThreadId = 0
  · simp [h0,ProcessInfo.toLive]
  · have hin : o.dwThreadId ∈ p.Threads := by
      have hh := h.resolve_left h0
      rw [Std.ExtTreeMap.mem_iff_isSome_getElem?]
      exact hh
    simp only [h0,if_false,ProcessInfo.toLive,LiveProcess.mk.injEq,and_true,true_and]
    funext tid
    rw [Std.ExtTreeMap.getElem?_insertIfNew]
    split
    · next hc =>
      obtain ⟨he,hn⟩ := hc
      exact absurd hin hn
    · rfl

theorem onFirstChance_toLive (o : DebugOptions) (a : Answers) (code : DWORD) (p : ProcessInfo)
    (h : code = STATUS_BREAKPOINT → o.dwThreadId = 0 ∨
      (p.fBreakpointSignalled = false → (p.toLive.threads o.dwThreadId).isSome)) :
    (onFirstChance o a code p).1.toLive =
      { p.toLive with attached := p.toLive.attached || decide (code = STATUS_BREAKPOINT) } := by
  simp only [onFirstChance]
  by_cases hc : code = STATUS_BREAKPOINT ∧ p.fBreakpointSignalled = false
  · have hs := signalBreakpoint_toLive o a p ((h hc.1).imp_right fun hh => hh hc.2)
    simp only [hc,and_self,if_true]
    split <;> simp [hs,filterFirstChance_toLive]
  · have hatt : (p.toLive.attached || decide (code = STATUS_BREAKPOINT)) = p.toLive.attached := by
      by_cases hb : code = STATUS_BREAKPOINT
      · have hp : p.fBreakpointSignalled = true := by
          by_contra hne
          exact hc ⟨hb,by simpa using hne⟩
        simp [ProcessInfo.toLive,hp]
      · simp [hb]
    simp only [hc,if_false,filterFirstChance_toLive,hatt]

/-- The process record an event leaves behind, as a live process. -/
def RecordChange.toLive (p : Option LiveProcess) : RecordChange → Option LiveProcess
  | .untouched => p
  | .store p => some p.toLive
  | .erase => none

theorem liveOf_apply (g : ProcessInfoList) (pid : DWORD) (r : RecordChange) :
    liveOf (r.apply g pid) = Function.update (liveOf g) pid (r.toLive (liveOf g pid)) := by
  cases r with
  | untouched => simp [RecordChange.apply,RecordChange.toLive]
  | store p => exact liveOf_insert g pid p
  | erase => exact liveOf_erase g pid

def DebugInfo.isExitProcess : DebugInfo → Bool
  | .EXIT_PROCESS _ => true
  | _ => false

theorem onException_store (o : DebugOptions) (a : Answers) (pid tid : DWORD)
    (record : ExceptionRecord) (first fT : Bool) (p : ProcessInfo) :
    ∃ p', (onException o a pid tid record first fT p).record = .store p' ∧
      p'.toLive =
        (if first then (onFirstChance o a record.ExceptionCode p).1 else p).toLive ∧
      (onException o a pid tid record first fT p).exits = false := by
  simp only [onException]
  cases first with
  | false => exact ⟨_,rfl,dumpThreads_toLive .. ,rfl⟩
  | true =>
    simp only [if_true]
    split
    · exact ⟨_,rfl,rfl,rfl⟩
    · exact ⟨_,rfl,dumpThreads_toLive .. ,rfl⟩

/-- Only `EXIT_PROCESS` can finish the loop, and it does once no record is left. -/
theorem handle_finishes (o : DebugOptions) (d : Delivery) (fT : Bool) (p : ProcessInfo)
    (g : ProcessInfoList) :
    (handle o d fT p).record.finishes g = (d.u.isExitProcess && g.isEmpty) := by
  cases hu : d.u with
  | EXCEPTION record first =>
    obtain ⟨p',hr,-⟩ := onException_store o d.answers d.dwProcessId d.dwThreadId record first fT p
    simp [handle,hu,hr,RecordChange.finishes,DebugInfo.isExitProcess]
  | CREATE_PROCESS hFile hProcess hThread base =>
    simp only [handle,hu,onCreateProcess,DebugInfo.isExitProcess]
    split <;> rfl
  | EXIT_PROCESS code => simp [handle,hu,onExitProcess,RecordChange.finishes,DebugInfo.isExitProcess]
  | OUTPUT_DEBUG_STRING data len =>
    simp only [handle,hu,onOutputDebugString,DebugInfo.isExitProcess]
    split <;> rfl
  | CREATE_THREAD | EXIT_THREAD | LOAD_DLL | UNLOAD_DLL | RIP | other =>
    simp [handle,hu,onExitThread,onLoadDll,RecordChange.finishes,DebugInfo.isExitProcess]

theorem observe_eq_self {l : LiveProcess} {d : Delivery}
    (hc : ∀ h, d.u ≠ .CREATE_THREAD h) (he : ∀ c, d.u ≠ .EXIT_THREAD c)
    (hb : d.u.isBreakpoint = false) : l.observe d = l := by
  unfold LiveProcess.observe
  split
  · next h hu => exact absurd hu (hc h)
  · next c hu => exact absurd hu (he c)
  · simp [hb]

theorem insert_threads (p : ProcessInfo) (tid : DWORD) (h : HANDLE) :
    ({ p with Threads := p.Threads.insert tid h } : ProcessInfo).toLive =
      p.toLive.setThread tid (some h) := by
  simp only [ProcessInfo.toLive,LiveProcess.setThread,LiveProcess.mk.injEq,and_true,true_and]
  funext t
  by_cases ht : t = tid
  · subst ht; simp
  · have ht' : tid ≠ t := fun he => ht he.symm
    simp [Std.ExtTreeMap.getElem?_insert,ht,ht']

theorem erase_threads (p : ProcessInfo) (tid : DWORD) :
    ({ p with Threads := p.Threads.erase tid } : ProcessInfo).toLive =
      p.toLive.setThread tid none := by
  simp only [ProcessInfo.toLive,LiveProcess.setThread,LiveProcess.mk.injEq,and_true,true_and]
  funext t
  by_cases ht : t = tid
  · subst ht; simp
  · have ht' : tid ≠ t := fun he => ht he.symm
    simp [Std.ExtTreeMap.getElem?_erase,ht,ht']

theorem liveOf_eq_some {g : ProcessInfoList} {pid : DWORD} {l : LiveProcess} :
    liveOf g pid = some l ↔ ∃ p, g[pid]? = some p ∧ p.toLive = l := by
  simp [liveOf,Option.map_eq_some_iff]

theorem Legal.isSome {t : LiveTable} {d : Delivery} (h : Legal t d)
    (hc : ∀ hFile hProcess hThread base, d.u ≠ .CREATE_PROCESS hFile hProcess hThread base) :
    (t d.dwProcessId).isSome := by
  cases hu : d.u with
  | CREATE_PROCESS hFile hProcess hThread base => exact absurd hu (hc _ _ _ _)
  | CREATE_THREAD | EXCEPTION | EXIT_THREAD | EXIT_PROCESS | LOAD_DLL | UNLOAD_DLL
  | OUTPUT_DEBUG_STRING | RIP | other =>
    simp only [Legal,hu] at h
    obtain ⟨l,hl,-⟩ := h
    simp [hl]

/-- Only the creation of a process finds no record. -/
theorem Legal.record {g : ProcessInfoList} {d : Delivery} (h : Legal (liveOf g) d)
    (hc : ∀ hFile hProcess hThread base, d.u ≠ .CREATE_PROCESS hFile hProcess hThread base) :
    ∃ p, g[d.dwProcessId]? = some p ∧ liveOf g d.dwProcessId = some p.toLive := by
  obtain ⟨l,hl⟩ := Option.isSome_iff_exists.mp (h.isSome hc)
  obtain ⟨p,hp,rfl⟩ := liveOf_eq_some.mp hl
  exact ⟨p,hp,hl⟩

theorem handle_exits {o : DebugOptions} {d : Delivery} (hsym : InitialisesSymbols d) (fT : Bool)
    (p : ProcessInfo) : (handle o d fT p).exits = false := by
  cases hu : d.u with
  | CREATE_PROCESS hFile hProcess hThread base => simp [handle,hu,onCreateProcess,hsym hProcess]
  | EXCEPTION record first =>
    obtain ⟨p',-,-,hx⟩ :=
      onException_store o d.answers d.dwProcessId d.dwThreadId record first fT p
    simpa [handle,hu] using hx
  | OUTPUT_DEBUG_STRING data len =>
    simp only [handle,hu,onOutputDebugString]
    split <;> rfl
  | CREATE_THREAD | EXIT_THREAD | EXIT_PROCESS | LOAD_DLL | UNLOAD_DLL | RIP | other =>
    simp [handle,hu,onExitThread,onExitProcess,onLoadDll]

/-- Handling a legal event leaves the record of exactly the process instance the
event leaves alive. -/
theorem handle_toLive {o : DebugOptions} {g : ProcessInfoList} {d : Delivery} (fT : Bool)
    (hlegal : Legal (liveOf g) d) (hopt : NamesLiveThread o (liveOf g) d) :
    (handle o d fT (g[d.dwProcessId]?.getD {})).record.toLive (liveOf g d.dwProcessId) =
      liveAfter (liveOf g d.dwProcessId) d := by
  cases hu : d.u with
  | CREATE_PROCESS hFile hProcess hThread base =>
    have hg : g[d.dwProcessId]? = none := by simpa [Legal,hu,liveOf] using hlegal
    have hh := insert_threads { hProcess := hProcess, fDumpWritten := !o.minidump }
      d.dwThreadId hThread
    simp only [handle,hu,onCreateProcess,hg,Option.getD_none,liveAfter]
    split <;> simpa [RecordChange.toLive,ProcessInfo.toLive,LiveProcess.setThread] using hh
  | CREATE_THREAD hThread =>
    obtain ⟨p,hp,hl⟩ := hlegal.record (by simp [hu])
    simp [handle,hu,hl,hp,RecordChange.toLive,liveAfter,LiveProcess.observe,insert_threads]
  | EXIT_PROCESS code => simp [handle,hu,onExitProcess,RecordChange.toLive,liveAfter]
  | EXIT_THREAD code =>
    obtain ⟨p,hp,hl⟩ := hlegal.record (by simp [hu])
    simp [handle,hu,hl,hp,onExitThread,RecordChange.toLive,liveAfter,LiveProcess.observe,
      erase_threads]
  | EXCEPTION record first =>
    obtain ⟨p,hp,hl⟩ := hlegal.record (by simp [hu])
    obtain ⟨p',hr,hp',-⟩ :=
      onException_store o d.answers d.dwProcessId d.dwThreadId record first fT p
    simp only [handle,hu,hp,hl,Option.getD_some,hr,RecordChange.toLive,liveAfter,
      Option.map_some,LiveProcess.observe,hp',Option.some_inj]
    cases first with
    | false => simp [DebugInfo.isBreakpoint]
    | true =>
      refine onFirstChance_toLive o d.answers record.ExceptionCode p fun hb => ?_
      refine (hopt (by simp [hu,DebugInfo.isBreakpoint,hb])).imp_right fun hh hf => ?_
      exact hh p.toLive hl hf
  | OUTPUT_DEBUG_STRING data len =>
    obtain ⟨p,hp,hl⟩ := hlegal.record (by simp [hu])
    have ho : p.toLive.observe d = p.toLive :=
      observe_eq_self (by simp [hu]) (by simp [hu]) (by simp [hu,DebugInfo.isBreakpoint])
    simp only [handle,hu,onOutputDebugString,liveAfter]
    split <;> simp [hl,hp,RecordChange.toLive,ho]
  | LOAD_DLL | UNLOAD_DLL | RIP | other =>
    obtain ⟨p,hp,hl⟩ := hlegal.record (by simp [hu])
    have ho : p.toLive.observe d = p.toLive :=
      observe_eq_self (by simp [hu]) (by simp [hu]) (by simp [hu,DebugInfo.isBreakpoint])
    simp [handle,hu,hl,hp,onLoadDll,RecordChange.toLive,liveAfter,ho]

/-- One turn of a waiting loop follows the table of live processes. -/
theorem turn_live {o : DebugOptions} {s : LoopState} {d : Delivery}
    (hlegal : Legal (liveOf s.g_Processes) d)
    (hopt : NamesLiveThread o (liveOf s.g_Processes) d) :
    liveOf (turn o s d).1.g_Processes = liveMachine.next (liveOf s.g_Processes) d := by
  have hg : (turn o s d).1.g_Processes =
      (handle o d s.fTerminating (s.g_Processes[d.dwProcessId]?.getD {})).record.apply
        s.g_Processes d.dwProcessId := by
    simp only [turn]
    split <;> rfl
  rw [hg,liveOf_apply,handle_toLive s.fTerminating hlegal hopt]
  rfl

theorem turn_control {o : DebugOptions} {s : LoopState} {d : Delivery}
    (hsym : InitialisesSymbols d) :
    (turn o s d).1.control =
      if d.u.isExitProcess && (turn o s d).1.g_Processes.isEmpty then .returned else .waiting := by
  simp only [turn,handle_exits hsym,Bool.false_eq_true,if_false,handle_finishes]

/-- The entry of `g_Processes` after a change. -/
def RecordChange.entry (p : Option ProcessInfo) : RecordChange → Option ProcessInfo
  | .untouched => p
  | .store p => some p
  | .erase => none

theorem getElem?_apply (g : ProcessInfoList) (pid q : DWORD) (r : RecordChange) :
    (r.apply g pid)[q]? = if q = pid then r.entry g[pid]? else g[q]? := by
  by_cases h : q = pid
  · subst h
    cases r <;> simp [RecordChange.apply,RecordChange.entry]
  · have h' : pid ≠ q := fun he => h he.symm
    cases r <;> simp [RecordChange.apply,Std.ExtTreeMap.getElem?_insert,
      Std.ExtTreeMap.getElem?_erase,h,h']

theorem turn_getElem? (o : DebugOptions) (s : LoopState) (d : Delivery) (q : DWORD) :
    (turn o s d).1.g_Processes[q]? =
      if q = d.dwProcessId then
        (handle o d s.fTerminating (s.g_Processes[d.dwProcessId]?.getD {})).record.entry
          s.g_Processes[d.dwProcessId]?
      else s.g_Processes[q]? := by
  rw [← getElem?_apply,turn]
  split <;> rfl

theorem handle_ne_erase {o : DebugOptions} {d : Delivery} (h : d.u.isExitProcess = false)
    (fT : Bool) (p : ProcessInfo) : (handle o d fT p).record ≠ .erase := by
  intro he
  have hf := handle_finishes o d fT p ∅
  simp [he,h,RecordChange.finishes] at hf

/-- A record is there until its process ends, and until then the loop does not return. -/
theorem turn_keeps {o : DebugOptions} {s : LoopState} {d : Delivery} {pid : DWORD}
    (hin : pid ∈ s.g_Processes) (hd : d.dwProcessId = pid → d.u.isExitProcess = false) :
    pid ∈ (turn o s d).1.g_Processes ∧ (turn o s d).1.control ≠ .returned := by
  have hg : pid ∈ (turn o s d).1.g_Processes := by
    rw [Std.ExtTreeMap.mem_iff_isSome_getElem?] at hin ⊢
    rw [turn_getElem?]
    split_ifs with hp
    · subst hp
      have hne := handle_ne_erase (o:=o) (hd rfl) s.fTerminating
        (s.g_Processes[d.dwProcessId]?.getD {})
      revert hne
      generalize (handle o d s.fTerminating (s.g_Processes[d.dwProcessId]?.getD {})).record = r
      intro hne
      cases r with
      | untouched => exact hin
      | store p => rfl
      | erase => exact absurd rfl hne
    · exact hin
  refine ⟨hg,?_⟩
  simp only [turn] at hg ⊢
  split at hg
  · next hx => simp [hx]
  · next hx =>
    have hne : Std.ExtTreeMap.isEmpty ((handle o d s.fTerminating
        (s.g_Processes[d.dwProcessId]?.getD {})).record.apply s.g_Processes d.dwProcessId) = false := by
      rw [Bool.eq_false_iff]
      intro he
      rw [Std.ExtTreeMap.isEmpty_iff] at he
      simp [he] at hg
    simp [hx,handle_finishes,hne]

/-- The hypotheses on an event: legal in the table it finds, with the thread of
the options live if it is a first breakpoint, and with symbols initialised. -/
def Admissible (o : DebugOptions) (t : LiveTable) (d : Delivery) : Prop :=
  Legal t d ∧ NamesLiveThread o t d ∧ InitialisesSymbols d

def AdmissibleStream (o : DebugOptions) (ds : List Delivery) : Prop :=
  liveMachine.Along (Admissible o) noProcess ds

/-- The state of the loop once it has been given the events. -/
def loopAfter (o : DebugOptions) (ds : List Delivery) : LoopState :=
  (DebugMainLoop o).after {} ds

theorem next_waiting {o : DebugOptions} {s : LoopState} (h : s.control = .waiting)
    (d : Delivery) : (DebugMainLoop o).next s d = (turn o s d).1 := by
  simp [Machine.next,DebugMainLoop,h]

theorem emit_waiting {o : DebugOptions} {s : LoopState} (h : s.control = .waiting)
    (d : Delivery) : (DebugMainLoop o).emit s d = (turn o s d).2 := by
  simp [Machine.emit,DebugMainLoop,h]

theorem next_stopped {o : DebugOptions} {s : LoopState} (h : s.control ≠ .waiting)
    (d : Delivery) : (DebugMainLoop o).next s d = s := by
  simp [Machine.next,DebugMainLoop,h]

theorem loopAfter_concat (o : DebugOptions) (ds : List Delivery) (d : Delivery) :
    loopAfter o (ds ++ [d]) = (DebugMainLoop o).next (loopAfter o ds) d := Machine.after_concat ..

theorem live_concat (ds : List Delivery) (d : Delivery) :
    live (ds ++ [d]) = liveMachine.next (live ds) d := Machine.after_concat ..

theorem waiting_of_concat {o : DebugOptions} {ds : List Delivery} {d : Delivery}
    (h : (loopAfter o (ds ++ [d])).control = .waiting) : (loopAfter o ds).control = .waiting := by
  by_contra hn
  rw [loopAfter_concat,next_stopped hn] at h
  exact hn h

/-- The records are the live processes, and the loop goes on waiting until an
`EXIT_PROCESS` leaves none. -/
theorem handled_live {o : DebugOptions} {ds : List Delivery} {d : Delivery}
    (hlive : liveOf (loopAfter o ds).g_Processes = live ds) (hd : Admissible o (live ds) d)
    (hwait : (loopAfter o ds).control = .waiting) :
    liveOf (loopAfter o (ds ++ [d])).g_Processes = live (ds ++ [d]) ∧
      (loopAfter o (ds ++ [d])).control =
        if d.u.isExitProcess && (loopAfter o (ds ++ [d])).g_Processes.isEmpty
        then .returned else .waiting := by
  have hd' : Admissible o (liveOf (loopAfter o ds).g_Processes) d := hlive ▸ hd
  rw [loopAfter_concat,next_waiting hwait,live_concat,← hlive]
  exact ⟨turn_live hd'.1 hd'.2.1,turn_control hd'.2.2⟩

theorem loopAfter_live {o : DebugOptions} {ds : List Delivery} (hadm : AdmissibleStream o ds)
    (hwait : (loopAfter o ds).control = .waiting) :
    liveOf (loopAfter o ds).g_Processes = live ds := by
  induction ds using List.reverseRecOn with
  | nil => exact liveOf_eq_noProcess.mpr rfl
  | append_singleton ds d ih =>
    obtain ⟨hadm,hd⟩ := Machine.along_concat.mp hadm
    have hw := waiting_of_concat hwait
    exact (handled_live (ih hadm hw) hd hw).1

/-- The event ends a process and leaves none alive. -/
def EndsLast (ds : List Delivery) (d : Delivery) : Prop :=
  d.u.isExitProcess = true ∧ live (ds ++ [d]) = noProcess

/-- `EXIT_PROCESS` has left no live process somewhere in the stream. -/
def LeavesNoProcess (ds : List Delivery) : Prop :=
  ∃ pre d post, ds = pre ++ d::post ∧ EndsLast pre d

theorem leavesNoProcess_concat {ds : List Delivery} {d : Delivery} :
    LeavesNoProcess (ds ++ [d]) ↔ LeavesNoProcess ds ∨ EndsLast ds d := by
  have hn (l : List Delivery) :
      ¬LeavesNoProcess l ↔ Machine.AtEach (fun pre e => ¬EndsLast pre e) l := by
    simp [LeavesNoProcess,Machine.AtEach]
  rw [← not_iff_not,hn,Machine.atEach_concat,← hn,not_or]

theorem loopAfter_control {o : DebugOptions} {ds : List Delivery} (hadm : AdmissibleStream o ds) :
    (LeavesNoProcess ds → (loopAfter o ds).control = .returned) ∧
      (¬LeavesNoProcess ds → (loopAfter o ds).control = .waiting) := by
  induction ds using List.reverseRecOn with
  | nil => exact ⟨fun ⟨pre,d,post,h,_⟩ => by simp at h,fun _ => rfl⟩
  | append_singleton ds d ih =>
    obtain ⟨hadm,hd⟩ := Machine.along_concat.mp hadm
    obtain ⟨hret,hwait⟩ := ih hadm
    rw [leavesNoProcess_concat]
    by_cases hl : LeavesNoProcess ds
    · have hr := hret hl
      have hs : (loopAfter o ds).control ≠ .waiting := by simp [hr]
      simp [loopAfter_concat,next_stopped hs,hl,hr]
    · have hw := hwait hl
      obtain ⟨hg,hc⟩ := handled_live (loopAfter_live hadm hw) hd hw
      rw [hc,EndsLast,← hg,liveOf_eq_noProcess]
      simp only [hl,false_or,Bool.and_eq_true]
      exact ⟨fun h => if_pos h,fun h => if_neg h⟩

/-- The keys are the live process identifiers, each with the handle its
`CREATE_PROCESS` delivered and exactly its live threads with theirs. -/
structure Matches (g : ProcessInfoList) (t : LiveTable) : Prop where
  keys : ∀ pid, pid ∈ g ↔ (t pid).isSome
  hProcess : ∀ pid p l, g[pid]? = some p → t pid = some l → p.hProcess = l.hProcess
  threads : ∀ pid p l, g[pid]? = some p → t pid = some l →
    ∀ tid, p.Threads[tid]? = l.threads tid

theorem matches_of_liveOf {g : ProcessInfoList} {t : LiveTable} (h : liveOf g = t) :
    Matches g t := by
  subst h
  refine ⟨fun pid => ?_,fun pid p l hp hl => ?_,fun pid p l hp hl tid => ?_⟩
  · rw [Std.ExtTreeMap.mem_iff_isSome_getElem?]
    simp [liveOf]
  · obtain ⟨q,hq,rfl⟩ := liveOf_eq_some.mp hl
    obtain rfl : p = q := by simpa [hp] using hq
    rfl
  · obtain ⟨q,hq,rfl⟩ := liveOf_eq_some.mp hl
    obtain rfl : p = q := by simpa [hp] using hq
    rfl

/-- After every event the loop handles, `g_Processes` is the table of live
processes; the loop has returned exactly when an `EXIT_PROCESS` has left none. -/
theorem g_Processes_matches_stream (o : DebugOptions) (ds : List Delivery)
    (hadm : AdmissibleStream o ds) :
    (∀ pre d post, ds = pre ++ d::post → (loopAfter o pre).control = .waiting →
        Matches (loopAfter o (pre ++ [d])).g_Processes (live (pre ++ [d]))) ∧
      (∀ pre post, ds = pre ++ post →
        ((loopAfter o pre).control = .returned ↔ LeavesNoProcess pre) ∧
          (loopAfter o pre).control ≠ .exited) := by
  constructor
  · rintro pre d post rfl hwait
    obtain ⟨hpre,hd,-⟩ := Machine.along_append.mp hadm
    exact matches_of_liveOf (handled_live (loopAfter_live hpre hwait) hd hwait).1
  · rintro pre post rfl
    obtain ⟨hret,hwait⟩ := loopAfter_control (Machine.along_append.mp hadm).1
    by_cases hl : LeavesNoProcess pre
    · simp [hret hl,hl]
    · simp [hwait hl,hl]

/-- Process 7 with a second thread, which ends before the process does. -/
def shortRun : List Delivery :=
  [⟨7,1,.CREATE_PROCESS 0 40 41 0x400000,{}⟩,⟨7,2,.CREATE_THREAD 42,{}⟩,
    ⟨7,1,.EXCEPTION ⟨STATUS_BREAKPOINT,0,[]⟩ true,{}⟩,⟨7,2,.EXIT_THREAD 0,{}⟩,
    ⟨7,1,.EXIT_PROCESS 0,{}⟩]

theorem g_Processes_matches_shortRun :
    AdmissibleStream {} shortRun ∧ (loopAfter {} shortRun).control = .returned := by
  have hadm : AdmissibleStream {} shortRun := by
    simp [AdmissibleStream,shortRun,Machine.Along,Admissible,Legal,NamesLiveThread,
      InitialisesSymbols,Machine.next,liveMachine,liveAfter,noProcess,LiveProcess.observe,
      LiveProcess.setThread]
  refine ⟨hadm,((g_Processes_matches_stream {} shortRun hadm).2 shortRun [] (by simp)).1.mpr ?_⟩
  refine ⟨shortRun.take 4,⟨7,1,.EXIT_PROCESS 0,{}⟩,[],rfl,rfl,?_⟩
  rw [live_concat]
  funext pid
  by_cases h : pid = 7
  · simp [Machine.next,liveMachine,liveAfter,noProcess,h]
  · simp [Machine.next,liveMachine,liveAfter,noProcess,h,live,shortRun,Machine.after,
      LiveProcess.observe]

end DebugLoop
end DrMingw
