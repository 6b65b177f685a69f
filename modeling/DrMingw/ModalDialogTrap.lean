import DrMingw.LiveProcesses

/-! The modal-dialog check of `catchsegv`. A timer thread finds a window of the
root process and traps its thread, while the debug loop goes on handling events. -/
namespace DrMingw
namespace ModalDialogTrap
open DebugLoop

/-- What `wmain` of `catchsegv` sets from its command line. -/
structure CatchsegvOptions where
  verbose_flag : Bool := false
  first_chance : Bool := false
  minidump : Bool := false
  minidumpDir : Option (List WCHAR) := none
  no_debug_string : Bool := false
  g_ModalDialogIgnore : Bool := false
  g_TimeOut : DWORD := 0
  g_Period : DWORD := 1000

def CatchsegvOptions.debugOptions (c : CatchsegvOptions) : DebugOptions :=
  { verbose_flag := c.verbose_flag
    first_chance := c.first_chance
    minidump := c.minidump
    minidumpDir := c.minidumpDir
    no_debug_string := c.no_debug_string }

/-- What the system answers while `TrapThread` runs. -/
structure TrapAnswers where
  /-- Whether `SuspendThread` succeeds. -/
  SuspendThread : HANDLE → Bool
  answers : Answers := {}

structure Trapped where
  loop : LoopState
  /-- The handles asserted to be non-null, in order. -/
  asserted : List HANDLE
  actions : List Action

/-- `TrapThread` without synchronisation: both records are looked up with an
inserting `operator[]`. A build with `NDEBUG` leaves the assertions out. -/
def TrapThread (o : DebugOptions) (ndebug : Bool) (a : TrapAnswers) (s : LoopState)
    (dwProcessId dwThreadId : DWORD) : Trapped :=
  let p := s.g_Processes[dwProcessId]?.getD {}
  let hProcess := p.hProcess
  let g := s.g_Processes.insert dwProcessId p
  if ndebug = false ∧ hProcess = NULL then
    ⟨{ s with g_Processes := g, control := .exited },[hProcess],[.abort]⟩
  else
    let hThread := p.Threads[dwThreadId]?.getD NULL
    let p := { p with Threads := p.Threads.insertIfNew dwThreadId NULL }
    let g := g.insert dwProcessId p
    if ndebug = false ∧ hThread = NULL then
      ⟨{ s with g_Processes := g, control := .exited },[hProcess,hThread],[.abort]⟩
    else if a.SuspendThread hThread then
      let w := writeDump o a.answers dwProcessId p none
      ⟨{ s with g_Processes := g.insert dwProcessId w.1, control := .exited },[hProcess,hThread],
        .SuspendThread hThread :: dumpThread a.answers hProcess hThread ++ w.2 ++ [.exit 3]⟩
    else
      ⟨{ s with g_Processes := g },[hProcess,hThread],
        [.SuspendThread hThread,.TerminateProcess hProcess 3]⟩

/-- The state the two threads of `catchsegv` share. -/
structure Session where
  loop : LoopState := {}
  g_TimerIgnore : Bool := false
  g_ElapsedTime : DWORD := 0
  /-- The thread `EnumWindowCallback` is about to trap. -/
  trapping : Option DWORD := none

/-- What happens next in either thread. -/
inductive Move
  | event (d : Delivery)
  /-- The timer fires; `modal` is the thread of the first modal window of the root
  process, and `terminated` tells whether the process could be terminated. -/
  | TimeOutCallback (modal : Option DWORD) (terminated : Bool)
  | TrapThread (a : TrapAnswers)

variable (c : CatchsegvOptions) (ndebug : Bool) (root : DWORD)

/-- Up to the call of `TrapThread` when a modal window is found. The debugger exits where
`TerminateProcessById` fails. -/
def TimeOutCallback (dwProcessId : DWORD) (s : Session) (modal : Option DWORD)
    (terminated : Bool) : Session × List Action :=
  if s.g_TimerIgnore then (s,[])
  else
    match (if c.g_ModalDialogIgnore then none else modal) with
    | some dwThreadId => ({ s with g_TimerIgnore := true, trapping := some dwThreadId },[])
    | none =>
      let s := { s with g_ElapsedTime := s.g_ElapsedTime + c.g_Period }
      if c.g_TimeOut = 0 ∨ s.g_ElapsedTime < c.g_TimeOut * 1000 then (s,[])
      else
        ({ s with
          g_TimerIgnore := true
          loop := if terminated then s.loop else { s.loop with control := .exited } },
          .TerminateProcessById dwProcessId :: if terminated then [] else [.exit EXIT_FAILURE])

/-- The thread trapped by the next `TrapThread` move, unless the debugger is gone. -/
def Session.target (s : Session) : Option DWORD :=
  if s.loop.control = .exited then none else s.trapping

def Session.trap (s : Session) (a : TrapAnswers) (tid : DWORD) : Trapped :=
  ModalDialogTrap.TrapThread c.debugOptions ndebug a s.loop root tid

def machine : Machine Session Move (DWORD × Action) where
  step s
    | .event d =>
      let r := (DebugMainLoop c.debugOptions).step s.loop d
      ({ s with loop := r.1 },r.2)
    | .TimeOutCallback modal terminated =>
      let r := TimeOutCallback c root s modal terminated
      (r.1,r.2.map (root,·))
    | .TrapThread a =>
      match s.target with
      | none => (s,[])
      | some tid =>
        let r := s.trap c ndebug root a tid
        ({ s with loop := r.loop, trapping := none },r.actions.map (root,·))

def session (ms : List Move) : Session := (machine c ndebug root).after {} ms

/-- The debug events among the moves. -/
def events (ms : List Move) : List Delivery :=
  ms.filterMap fun
    | .event d => some d
    | _ => none

/-- Events are legal and reported to a waiting loop, and a modal window belongs to
a thread live at that time. -/
def Allowed (pre : List Move) : Move → Prop
  | .event d => (session c ndebug root pre).loop.control = .waiting ∧ Legal (live (events pre)) d
  | .TimeOutCallback modal _ => ∀ tid, modal = some tid →
      ∃ l, live (events pre) root = some l ∧ (l.threads tid).isSome
  | .TrapThread _ => True

/-- The map has the same processes as before, each with the same threads. -/
structure AddsNoKey (g g' : ProcessInfoList) : Prop where
  processes : ∀ pid, pid ∈ g' ↔ pid ∈ g
  threads : ∀ (pid : DWORD) (p p' : ProcessInfo), g[pid]? = some p → g'[pid]? = some p' →
    ∀ tid, tid ∈ p'.Threads ↔ tid ∈ p.Threads

/-- Both assertions hold and no key is added. -/
def TrapSound (s : Session) : Move → Prop
  | .TrapThread a => ∀ tid, s.target = some tid →
      (∀ h ∈ (s.trap c ndebug root a tid).asserted, h ≠ NULL) ∧
        AddsNoKey s.loop.g_Processes (s.trap c ndebug root a tid).loop.g_Processes
  | _ => True

/-- The thread is live, and its own and its process's handle were delivered non-null. -/
def LiveHandles (t : LiveTable) (pid tid : DWORD) : Prop :=
  ∃ l h, t pid = some l ∧ l.hProcess ≠ NULL ∧ l.threads tid = some h ∧ h ≠ NULL

/-- The thread found by `EnumWindowCallback` is still live when it is trapped. -/
def TrapsLiveThread (pre : List Move) : Move → Prop
  | .TrapThread _ => ∀ tid, (session c ndebug root pre).target = some tid →
      LiveHandles (live (events pre)) root tid
  | _ => True

variable {c ndebug root} {o : DebugOptions} {a : TrapAnswers} {s : LoopState} {tid : DWORD}
  {ms : List Move} {m : Move}

theorem TrapThread_asserted (o : DebugOptions) (ndebug : Bool) (a : TrapAnswers) (s : LoopState)
    (pid tid : DWORD) :
    (∀ h ∈ (TrapThread o ndebug a s pid tid).asserted, h ≠ NULL) ↔
      (s.g_Processes[pid]?.getD {}).hProcess ≠ NULL ∧
        (s.g_Processes[pid]?.getD {}).Threads[tid]?.getD NULL ≠ NULL := by
  simp only [TrapThread]
  by_cases hp : (s.g_Processes[pid]?.getD {}).hProcess = NULL
  · cases ndebug <;> simp [hp]
    split <;> simp
  · by_cases ht : (s.g_Processes[pid]?.getD {}).Threads[tid]?.getD NULL = NULL
    · cases ndebug <;> simp [hp,ht]
      split <;> simp
    · simp only [hp,ht,and_false,if_false]
      split <;> simp [hp,ht]

theorem toLive_insertIfNew {p : ProcessInfo} {tid : DWORD} {h : HANDLE}
    (hp : p.Threads[tid]? = some h) :
    ({ p with Threads := p.Threads.insertIfNew tid NULL } : ProcessInfo).toLive = p.toLive := by
  have hin : tid ∈ p.Threads := by simp [Std.ExtTreeMap.mem_iff_isSome_getElem?,hp]
  simp only [ProcessInfo.toLive,LiveProcess.mk.injEq,and_true,true_and]
  funext t
  rw [Std.ExtTreeMap.getElem?_insertIfNew,if_neg (fun hh => hh.2 hin)]

theorem update_liveOf {g : ProcessInfoList} {pid : DWORD} {p : ProcessInfo} {q : ProcessInfo}
    (hp : g[pid]? = some p) (hq : q.toLive = p.toLive) :
    Function.update (liveOf g) pid (some q.toLive) = liveOf g := by
  rw [hq,Function.update_eq_self_iff]
  simp [liveOf,hp]

/-- Trapping a live thread with non-null handles finds both records. -/
theorem TrapThread_live (hl : LiveHandles (liveOf s.g_Processes) root tid) :
    liveOf (TrapThread o ndebug a s root tid).loop.g_Processes = liveOf s.g_Processes := by
  obtain ⟨l,h,hl,hn,hh,hne⟩ := hl
  obtain ⟨p,hp,rfl⟩ := liveOf_eq_some.mp hl
  have hP : p.hProcess ≠ NULL := hn
  have hT : p.Threads[tid]? = some h := hh
  simp only [TrapThread,hp,Option.getD_some,hP,hT,hne,and_false,if_false]
  split
  · simp only [liveOf_insert,writeDump_toLive,Function.update_idem]
    exact update_liveOf hp (toLive_insertIfNew hT)
  · simp only [liveOf_insert,Function.update_idem]
    exact update_liveOf hp (toLive_insertIfNew hT)

theorem addsNoKey_of_liveOf {g g' : ProcessInfoList} (h : liveOf g' = liveOf g) :
    AddsNoKey g g' := by
  refine ⟨fun pid => ?_,fun pid p p' hp hp' tid => ?_⟩
  · have hs := congrArg Option.isSome (congrFun h pid)
    simp only [liveOf,Option.isSome_map] at hs
    rw [Std.ExtTreeMap.mem_iff_isSome_getElem?,Std.ExtTreeMap.mem_iff_isSome_getElem?,hs]
  · have hl : some p'.toLive = some p.toLive := by
      simpa [liveOf,hp,hp'] using congrFun h pid
    have ht : p'.Threads[tid]? = p.Threads[tid]? :=
      congrFun (congrArg LiveProcess.threads (Option.some.inj hl)) tid
    rw [Std.ExtTreeMap.mem_iff_isSome_getElem?,Std.ExtTreeMap.mem_iff_isSome_getElem?,ht]

/-- The assertions hold only where both records exist with their handles. -/
theorem liveHandles_of_asserted
    (h : ∀ x ∈ (TrapThread o ndebug a s root tid).asserted, x ≠ NULL) :
    LiveHandles (liveOf s.g_Processes) root tid := by
  obtain ⟨hp,ht⟩ := (TrapThread_asserted ..).mp h
  cases hg : s.g_Processes[root]? with
  | none => simp [hg] at hp
  | some p =>
    simp only [hg,Option.getD_some] at hp ht
    cases hT : p.Threads[tid]? with
    | none => simp [hT] at ht
    | some hThread =>
      exact ⟨p.toLive,hThread,by simp [liveOf,hg],hp,hT,by simpa [hT] using ht⟩

/-- A trap is sound exactly on a live thread, as long as the records are right. -/
theorem trapSound_iff {s : Session} {t : LiveTable} (hs : liveOf s.loop.g_Processes = t)
    (a : TrapAnswers) :
    TrapSound c ndebug root s (.TrapThread a) ↔
      ∀ tid, s.target = some tid → LiveHandles t root tid := by
  subst hs
  refine forall_congr' fun tid => forall_congr' fun _ => ⟨fun h => ?_,fun h => ⟨?_,?_⟩⟩
  · exact liveHandles_of_asserted h.1
  · obtain ⟨l,x,hl,hn,hx,hne⟩ := h
    obtain ⟨p,hp,rfl⟩ := liveOf_eq_some.mp hl
    have hT : p.Threads[tid]? = some x := hx
    have hP : p.hProcess ≠ NULL := hn
    refine (TrapThread_asserted ..).mpr ?_
    simpa [hp,hT] using And.intro hP hne
  · exact addsNoKey_of_liveOf (TrapThread_live h)

theorem session_concat (ms : List Move) (m : Move) :
    session c ndebug root (ms ++ [m]) = (machine c ndebug root).next (session c ndebug root ms) m :=
  Machine.after_concat ..

theorem events_concat (ms : List Move) (m : Move) : events (ms ++ [m]) = events ms ++ events [m] :=
  List.filterMap_append ..

theorem TimeOutCallback_loop (s : Session) (modal : Option DWORD) (terminated : Bool) :
    (TimeOutCallback c root s modal terminated).1.loop.g_Processes = s.loop.g_Processes ∧
      ((TimeOutCallback c root s modal terminated).1.loop.control = s.loop.control ∨
        (TimeOutCallback c root s modal terminated).1.loop.control = .exited) := by
  unfold TimeOutCallback
  split
  · simp
  · split
    · simp
    · dsimp only
      split
      · simp
      · cases terminated <;> simp

/-- As long as only live threads are trapped, the records are the live processes. -/
theorem session_live
    (hs : liveOf (session c ndebug root ms).loop.g_Processes = live (events ms))
    (hm : Allowed c ndebug root ms m) (ht : TrapsLiveThread c ndebug root ms m) :
    liveOf (session c ndebug root (ms ++ [m])).loop.g_Processes = live (events (ms ++ [m])) := by
  rw [session_concat,events_concat]
  cases m with
  | event d =>
    obtain ⟨hw,hd⟩ := hm
    have hg : ((machine c ndebug root).next (session c ndebug root ms) (.event d)).loop =
        (turn c.debugOptions (session c ndebug root ms).loop d).1 := next_waiting hw d
    have he : events [.event d] = [d] := rfl
    rw [hg,he,live_concat,← hs]
    exact turn_live (hs ▸ hd) fun _ => .inl rfl
  | TimeOutCallback modal terminated =>
    have he : events [.TimeOutCallback modal terminated] = [] := rfl
    rw [he,List.append_nil,← hs]
    exact congrArg liveOf (TimeOutCallback_loop ..).1
  | TrapThread a =>
    have he : events [.TrapThread a] = [] := rfl
    rw [he,List.append_nil,← hs]
    cases htid : (session c ndebug root ms).target with
    | none => simp [Machine.next,machine,htid]
    | some tid =>
      have hl := ht tid htid
      rw [← hs] at hl
      simpa [Machine.next,machine,htid,Session.trap] using TrapThread_live hl

theorem traps_run (h : Machine.AtEach (Allowed c ndebug root) ms) :
    (Machine.AtEach (TrapsLiveThread c ndebug root) ms →
        liveOf (session c ndebug root ms).loop.g_Processes = live (events ms)) ∧
      (Machine.AtEach (fun pre => TrapSound c ndebug root (session c ndebug root pre)) ms ↔
        Machine.AtEach (TrapsLiveThread c ndebug root) ms) := by
  induction ms using List.reverseRecOn with
  | nil => exact ⟨fun _ => liveOf_eq_noProcess.mpr rfl,
      fun _ => Machine.atEach_nil _,fun _ => Machine.atEach_nil _⟩
  | append_singleton ms m ih =>
    obtain ⟨h,hm⟩ := Machine.atEach_concat.mp h
    obtain ⟨hlive,hiff⟩ := ih h
    rw [Machine.atEach_concat,Machine.atEach_concat,hiff]
    refine ⟨fun ht => session_live (hlive ht.1) hm ht.2,and_congr_right fun ht => ?_⟩
    cases m with
    | TrapThread a => exact trapSound_iff (hlive ht) a
    | event d => exact Iff.rfl
    | TimeOutCallback modal terminated => exact Iff.rfl

/-- In any interleaving all traps are sound, both assertions holding and no key
being added, if and only if each of them comes while its thread is still live. -/
theorem trap_sound_iff (c : CatchsegvOptions) (ndebug : Bool) (root : DWORD) (ms : List Move)
    (h : ∀ pre m post, ms = pre ++ m::post → Allowed c ndebug root pre m) :
    (∀ pre m post, ms = pre ++ m::post →
        TrapSound c ndebug root (session c ndebug root pre) m) ↔
      ∀ pre m post, ms = pre ++ m::post → TrapsLiveThread c ndebug root pre m :=
  (traps_run h).2

/-- A trap leaves the record of the process behind, found or inserted. -/
theorem TrapThread_mem (o : DebugOptions) (ndebug : Bool) (a : TrapAnswers) (s : LoopState)
    (pid tid : DWORD) :
    pid ∈ (TrapThread o ndebug a s pid tid).loop.g_Processes ∧
      ((TrapThread o ndebug a s pid tid).loop.control = s.control ∨
        (TrapThread o ndebug a s pid tid).loop.control = .exited) := by
  simp only [TrapThread]
  split
  · simp
  · split
    · simp
    · split <;> simp

theorem phantom_step {s : Session} (hin : root ∈ s.loop.g_Processes)
    (hc : s.loop.control ≠ .returned)
    (hm : ∀ d, m = .event d → d.dwProcessId = root → d.u.isExitProcess = false) :
    root ∈ ((machine c ndebug root).next s m).loop.g_Processes ∧
      ((machine c ndebug root).next s m).loop.control ≠ .returned := by
  cases m with
  | event d =>
    change root ∈ ((DebugMainLoop c.debugOptions).next s.loop d).g_Processes ∧
      ((DebugMainLoop c.debugOptions).next s.loop d).control ≠ .returned
    by_cases hw : s.loop.control = .waiting
    · rw [next_waiting hw]
      exact turn_keeps hin (hm d rfl)
    · rw [next_stopped hw]
      exact ⟨hin,hc⟩
  | TimeOutCallback modal terminated =>
    obtain ⟨hg,hk⟩ := TimeOutCallback_loop s modal terminated
    change root ∈ (TimeOutCallback c root s modal terminated).1.loop.g_Processes ∧
      (TimeOutCallback c root s modal terminated).1.loop.control ≠ .returned
    refine ⟨hg ▸ hin,?_⟩
    rcases hk with hk | hk
    · exact hk ▸ hc
    · simp [hk]
  | TrapThread a =>
    cases htid : s.target with
    | none => simpa [Machine.next,machine,htid] using And.intro hin hc
    | some tid =>
      obtain ⟨hg,hk⟩ := TrapThread_mem c.debugOptions ndebug a s.loop root tid
      have hr : ((machine c ndebug root).next s (.TrapThread a)).loop =
          (TrapThread c.debugOptions ndebug a s.loop root tid).loop := by
        simp [Machine.next,machine,htid,Session.trap]
      rw [hr]
      refine ⟨hg,?_⟩
      rcases hk with hk | hk
      · exact hk ▸ hc
      · simp [hk]

/-- A record that no event of its own ends, such as one a trap has inserted, keeps
the loop from returning whatever follows. -/
theorem phantom_keeps_loop {s : Session} (hin : root ∈ s.loop.g_Processes)
    (hc : s.loop.control ≠ .returned)
    (hms : ∀ d, .event d ∈ ms → d.dwProcessId = root → d.u.isExitProcess = false) :
    ((machine c ndebug root).after s ms).loop.control ≠ .returned := by
  have hrun : (machine c ndebug root).Along (fun _ m => ∀ d, m = .event d →
      d.dwProcessId = root → d.u.isExitProcess = false) s ms :=
    Machine.along_of_forall fun m hm d hd => hms d (hd ▸ hm)
  have hstep : ∀ s m, (root ∈ s.loop.g_Processes ∧ s.loop.control ≠ .returned) →
      (∀ d, m = .event d → d.dwProcessId = root → d.u.isExitProcess = false) →
      root ∈ ((machine c ndebug root).next s m).loop.g_Processes ∧
        ((machine c ndebug root).next s m).loop.control ≠ .returned :=
    fun s m hs hm => phantom_step hs.1 hs.2 hm
  exact (Machine.after_invariant hstep ⟨hin,hc⟩ hrun).2

/-- Thread 1 of the root process shows a dialog and is trapped. -/
def dialogRun : List Move :=
  [.event ⟨7,1,.CREATE_PROCESS 0 40 41 0x400000,{}⟩,.TimeOutCallback (some 1) true,
    .TrapThread ⟨fun _ => true,{}⟩]

theorem trap_sound_dialogRun :
    TrapSound {} true 7 (session {} true 7 (dialogRun.take 2)) (.TrapThread ⟨fun _ => true,{}⟩) := by
  refine (trap_sound_iff {} true 7 dialogRun ?_).mpr ?_ (dialogRun.take 2) _ [] rfl
  · change Machine.AtEach (Allowed {} true 7) dialogRun
    refine Machine.atEach_cons.mpr ⟨⟨rfl,rfl⟩,Machine.atEach_cons.mpr ⟨fun tid htid => ?_,
      Machine.atEach_cons.mpr ⟨trivial,Machine.atEach_nil _⟩⟩⟩
    obtain rfl := Option.some.inj htid
    exact ⟨_,rfl,rfl⟩
  · change Machine.AtEach (TrapsLiveThread {} true 7) dialogRun
    refine Machine.atEach_cons.mpr ⟨trivial,Machine.atEach_cons.mpr ⟨trivial,
      Machine.atEach_cons.mpr ⟨fun tid htid => ?_,Machine.atEach_nil _⟩⟩⟩
    have htarget : (session {} true 7 (dialogRun.take 2)).target = some 1 := by decide
    obtain rfl : 1 = tid := Option.some.inj (htarget.symm.trans htid)
    exact ⟨_,41,rfl,by decide,rfl,by decide⟩

/-- The root process ends between the two steps of the timer, a child going on. -/
def lateTrap : List Move :=
  [.event ⟨7,1,.CREATE_PROCESS 0 40 41 0x400000,{}⟩,
    .event ⟨8,2,.CREATE_PROCESS 0 50 51 0x400000,{}⟩,.TimeOutCallback (some 1) true,
    .event ⟨7,1,.EXIT_PROCESS 0,{}⟩,.TrapThread ⟨fun h => h ≠ NULL,{}⟩]

theorem trap_leaves_phantom :
    ¬ ∀ (c : CatchsegvOptions) (ndebug : Bool) (root : DWORD) (ms : List Move),
      (∀ pre m post, ms = pre ++ m::post → Allowed c ndebug root pre m) →
      ∀ pre m post, ms = pre ++ m::post →
        TrapSound c ndebug root (session c ndebug root pre) m := by
  intro h
  have hallowed : Machine.AtEach (Allowed {} true 7) lateTrap := by
    simp [lateTrap,Machine.atEach_cons,Machine.atEach_nil,Allowed,Legal,events,live,
      liveMachine,Machine.after,Machine.next,liveAfter,noProcess,LiveProcess.observe]
    decide
  have hsound := h {} true 7 lateTrap hallowed (lateTrap.take 4) _ [] rfl 1 (by decide)
  exact absurd (hsound.1 NULL (by decide)) (by decide)

end ModalDialogTrap
end DrMingw
