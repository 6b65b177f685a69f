import DrMingw.Win32
import DrMingw.Machine
import DrMingw.Ledger

/-! The report window of `drmingw`: the debugger thread duplicates each text and
posts it, the window thread appends it to the edit control and frees it. -/
namespace DrMingw
namespace ReportQueue

/-- A posted message. `WM_USER_APPEND_TEXT` carries the address of a duplicated
buffer, here its allocation number, together with the text stored there. -/
inductive Message
  | WM_USER_APPEND_TEXT (szBuf : ℕ) (text : List WCHAR)
  | other
  deriving DecidableEq

structure Window where
  queue : List Message
  /-- Contents of the edit control. -/
  edit : List WCHAR
  /-- What `wcsdup` allocated and `free` gave back. -/
  heap : List (Deed ℕ)
  /-- Calls of `wcsdup` so far; the next one numbers its buffer with it. -/
  duplicated : ℕ

def initial : Window := ⟨[],[],[],0⟩

/-- The queue has a finite limit, and a post beyond it fails without enqueuing. -/
def PostMessage (limit : ℕ) (queue : List Message) (m : Message) : Bool × List Message :=
  if queue.length < limit then (true,queue ++ [m]) else (false,queue)

/-- The dump callback of the debugger thread; the result of `PostMessage` is dropped. -/
def appendText (limit : ℕ) (w : Window) (szText : List WCHAR) : Window :=
  let szBuf := w.duplicated
  { w with
    heap := w.heap ++ [.acquire szBuf]
    duplicated := w.duplicated + 1
    queue := (PostMessage limit w.queue (.WM_USER_APPEND_TEXT szBuf szText)).2 }

/-- `EM_SETSEL` followed by `EM_REPLACESEL`. -/
def replaceSelection (text : List WCHAR) (start stop : ℕ) (s : List WCHAR) : List WCHAR :=
  text.take start ++ s ++ text.drop stop

/-- The window procedure on a message taken from the queue. -/
def WndProc (w : Window) : Message → Window
  | .WM_USER_APPEND_TEXT szBuf text =>
    let ndx := w.edit.length
    { w with edit := replaceSelection w.edit ndx ndx text, heap := w.heap ++ [.release szBuf] }
  | .other => w

/-- One turn of `mainLoop`, which blocks while the queue is empty. -/
def dispatch (w : Window) : Window :=
  match w.queue with
  | [] => w
  | m::queue => WndProc { w with queue := queue } m

/-- What can happen next in either thread, or in the system that posts other messages. -/
inductive Action
  | appendText (szText : List WCHAR)
  | dispatch
  | postOther
  deriving DecidableEq

def machine (limit : ℕ) : Machine Window Action Empty where
  step w
    | .appendText szText => (appendText limit w szText,[])
    | .dispatch => (dispatch w,[])
    | .postOther => ({ w with queue := (PostMessage limit w.queue .other).2 },[])

/-- The text passed to the dump callback by one action. -/
def Action.text : Action → List WCHAR
  | .appendText szText => szText
  | _ => []

def passedText (as : List Action) : List WCHAR := as.flatMap Action.text

def Message.text : Message → List WCHAR
  | .WM_USER_APPEND_TEXT _ text => text
  | .other => []

def Message.buffer : Message → List ℕ
  | .WM_USER_APPEND_TEXT szBuf _ => [szBuf]
  | .other => []

def pendingText (w : Window) : List WCHAR := w.queue.flatMap Message.text

def pendingBuffers (w : Window) : List ℕ := w.queue.flatMap Message.buffer

/-- The queue takes one more message. -/
def HasRoom (limit : ℕ) (w : Window) : Prop := w.queue.length < limit

instance (limit : ℕ) (w : Window) : Decidable (HasRoom limit w) := by
  unfold HasRoom
  infer_instance

/-- An action other than an `appendText` that finds the queue full. -/
def Fits (limit : ℕ) (w : Window) : Action → Prop
  | .appendText _ => HasRoom limit w
  | _ => True

/-- The buffer an `appendText` leaves without an owner when its post fails. -/
def lostBy (limit : ℕ) (w : Window) : Action → List ℕ
  | .appendText _ => if HasRoom limit w then [] else [w.duplicated]
  | _ => []

def lost (limit : ℕ) : Window → List Action → List ℕ
  | _, [] => []
  | w, a::as => lostBy limit w a ++ lost limit ((machine limit).next w a) as

variable {limit : ℕ}

@[simp] theorem next_appendText (w : Window) (s : List WCHAR) :
    (machine limit).next w (.appendText s) = appendText limit w s := rfl
@[simp] theorem next_dispatch (w : Window) :
    (machine limit).next w .dispatch = dispatch w := rfl
@[simp] theorem next_postOther (w : Window) :
    (machine limit).next w .postOther =
      { w with queue := (PostMessage limit w.queue .other).2 } := rfl

theorem dispatch_nil {w : Window} (h : w.queue = []) : dispatch w = w := by
  simp [dispatch,h]

theorem dispatch_append {w : Window} {b : ℕ} {s : List WCHAR} {q : List Message}
    (h : w.queue = .WM_USER_APPEND_TEXT b s :: q) :
    dispatch w = { w with queue := q, edit := w.edit ++ s, heap := w.heap ++ [.release b] } := by
  simp [dispatch,h,WndProc,replaceSelection]

theorem dispatch_other {w : Window} {q : List Message} (h : w.queue = .other :: q) :
    dispatch w = { w with queue := q } := by
  simp [dispatch,h,WndProc]

theorem postOther_pending (w : Window) (limit : ℕ) :
    ((PostMessage limit w.queue .other).2.flatMap Message.text) = pendingText w ∧
      ((PostMessage limit w.queue .other).2.flatMap Message.buffer) = pendingBuffers w := by
  simp only [PostMessage,pendingText,pendingBuffers]
  split <;> simp [Message.text,Message.buffer]

/-- No text is ever reordered or dropped once it is in the queue. -/
theorem step_text {w : Window} {a : Action} (h : Fits limit w a) :
    ((machine limit).next w a).edit ++ pendingText ((machine limit).next w a) =
      w.edit ++ pendingText w ++ a.text := by
  cases a with
  | appendText s =>
    have hh : w.queue.length < limit := h
    simp [appendText,PostMessage,hh,pendingText,Message.text,Action.text]
  | dispatch =>
    rw [next_dispatch]
    cases hq : w.queue with
    | nil => simp [dispatch_nil hq,Action.text]
    | cons m q =>
      cases m with
      | WM_USER_APPEND_TEXT b s =>
        simp [dispatch_append hq,pendingText,hq,Message.text,Action.text]
      | other => simp [dispatch_other hq,pendingText,hq,Message.text,Action.text]
  | postOther =>
    have hh := (postOther_pending w limit).1
    simp only [pendingText] at hh
    simp [pendingText,hh,Action.text]

theorem run_text {w : Window} {as : List Action} (h : (machine limit).Along (Fits limit) w as) :
    ((machine limit).after w as).edit ++ pendingText ((machine limit).after w as) =
      w.edit ++ pendingText w ++ passedText as := by
  induction as generalizing w with
  | nil => simp [passedText]
  | cons a as ih =>
    rw [Machine.after_cons,ih h.2,step_text h.1]
    simp [passedText]

/-- What the heap holds is what the queue carries and what failed posts have lost. -/
theorem step_heap {w : Window} {gone : List ℕ} (a : Action)
    (h : Ledger.Holds w.heap (pendingBuffers w ++ gone)) :
    Ledger.Holds ((machine limit).next w a).heap
      (pendingBuffers ((machine limit).next w a) ++ (gone ++ lostBy limit w a)) := by
  cases a with
  | appendText s =>
    rw [next_appendText]
    apply (h.acquire w.duplicated).perm
    by_cases hr : w.queue.length < limit
    · have hl : lostBy limit w (.appendText s) = [] := by simp [lostBy,HasRoom,hr]
      simp only [appendText,PostMessage,hr,if_true,pendingBuffers,hl,List.flatMap_append,
        List.append_nil,List.flatMap_cons,List.flatMap_nil,Message.buffer]
      rw [List.append_assoc]
      exact List.perm_middle.symm
    · have hl : lostBy limit w (.appendText s) = [w.duplicated] := by
        simp [lostBy,HasRoom,hr]
      simp only [appendText,PostMessage,hr,if_false,pendingBuffers,hl]
      rw [← List.append_assoc]
      exact (List.perm_append_singleton _ _).symm
  | dispatch =>
    have hl : lostBy limit w .dispatch = [] := rfl
    rw [next_dispatch,hl,List.append_nil]
    cases hq : w.queue with
    | nil => simpa [dispatch_nil hq] using h
    | cons m q =>
      cases m with
      | WM_USER_APPEND_TEXT b s =>
        simp only [pendingBuffers,hq,List.flatMap_cons,Message.buffer] at h
        simpa [dispatch_append hq,pendingBuffers] using h.release
      | other => simpa [dispatch_other hq,pendingBuffers,hq,Message.buffer] using h
  | postOther =>
    have hh := (postOther_pending w limit).2
    simp only [next_postOther,lostBy,pendingBuffers,List.append_nil,hh] at h ⊢
    exact h

theorem run_heap {w : Window} {gone : List ℕ} (as : List Action)
    (h : Ledger.Holds w.heap (pendingBuffers w ++ gone)) :
    Ledger.Holds ((machine limit).after w as).heap
      (pendingBuffers ((machine limit).after w as) ++ (gone ++ lost limit w as)) := by
  induction as generalizing w gone with
  | nil => simpa [lost] using h
  | cons a as ih =>
    rw [Machine.after_cons,lost,← List.append_assoc gone]
    exact ih (step_heap a h)

/-- Buffers are numbered afresh. -/
def Numbered (w : Window) : Prop :=
  Ledger.Distinct w.heap ∧ ∀ b, w.duplicated ≤ b → Ledger.acquired w.heap b = 0

theorem numbered_step (w : Window) (a : Action) (h : Numbered w) :
    Numbered ((machine limit).next w a) := by
  obtain ⟨hd,hn⟩ := h
  cases a with
  | appendText s =>
    refine ⟨hd.acquire (hn _ le_rfl),fun b hb => ?_⟩
    have hb' : w.duplicated + 1 ≤ b := hb
    have hne : w.duplicated ≠ b := by omega
    simp [appendText,hn b (by omega),hne]
  | dispatch =>
    rw [next_dispatch]
    cases hq : w.queue with
    | nil => rw [dispatch_nil hq]; exact ⟨hd,hn⟩
    | cons m q =>
      cases m with
      | WM_USER_APPEND_TEXT b s =>
        rw [dispatch_append hq]
        exact ⟨hd.release b,fun c hc => by simpa using hn c hc⟩
      | other => rw [dispatch_other hq]; exact ⟨hd,hn⟩
  | postOther => exact ⟨hd,hn⟩

theorem lost_eq_nil_iff (w : Window) (as : List Action) :
    lost limit w as = [] ↔ (machine limit).Along (Fits limit) w as := by
  induction as generalizing w with
  | nil => simp [lost,Machine.Along]
  | cons a as ih => cases a <;> simp [lost,lostBy,Machine.Along,Fits,ih]

theorem fits_iff (w : Window) (as : List Action) :
    (machine limit).Along (Fits limit) w as ↔
      ∀ pre szText post, as = pre ++ .appendText szText :: post →
        HasRoom limit ((machine limit).after w pre) := by
  constructor
  · rintro h pre s post rfl
    exact h.at_split
  · intro h
    induction as generalizing w with
    | nil => trivial
    | cons a as ih =>
      refine ⟨?_,ih _ fun pre s post he => h (a::pre) s post (by simp [he])⟩
      cases a with
      | appendText s => exact h [] s as rfl
      | dispatch => trivial
      | postOther => trivial

/-- Once the queue is drained, the window shows every text in call order and
every duplicated buffer has been freed exactly once, if and only if no call of
`appendText` found the queue full. -/
theorem report_complete_iff (limit : ℕ) (as : List Action)
    (hdrained : ((machine limit).after initial as).queue = []) :
    (((machine limit).after initial as).edit = passedText as ∧
        Ledger.Settled ((machine limit).after initial as).heap) ↔
      ∀ pre szText post, as = pre ++ .appendText szText :: post →
        HasRoom limit ((machine limit).after initial pre) := by
  have hdistinct : Ledger.Distinct ((machine limit).after initial as).heap :=
    (Machine.after_invariant_all numbered_step
      (⟨fun r => by simp [initial],by simp [initial]⟩ : Numbered initial) as).1
  have hheap := @run_heap limit initial [] as Ledger.holds_nil
  have hpending : pendingBuffers ((machine limit).after initial as) = [] := by
    simp [pendingBuffers,hdrained]
  rw [hpending,List.nil_append,List.nil_append] at hheap
  rw [Ledger.settled_iff hdistinct hheap,lost_eq_nil_iff,fits_iff]
  refine and_iff_right_of_imp fun h => ?_
  have htext := run_text ((fits_iff initial as).mpr h)
  simpa [pendingText,hdrained,show initial.edit = [] from rfl,
    show initial.queue = [] from rfl] using htext

theorem report_complete_two_texts :
    (((machine 2).after initial
          [.appendText [65],.appendText [66],.dispatch,.dispatch]).edit = [65,66] ∧
        Ledger.Settled ((machine 2).after initial
          [.appendText [65],.appendText [66],.dispatch,.dispatch]).heap) := by
  refine (report_complete_iff 2 _ (by decide)).mpr ?_
  exact (fits_iff initial _).mp (by simp [Machine.Along,Fits,HasRoom,initial,appendText,PostMessage])

theorem dispatch_queue (w : Window) : (dispatch w).queue = w.queue.tail := by
  cases hq : w.queue with
  | nil => simp [dispatch_nil hq,hq]
  | cons m q => cases m <;> simp [dispatch,hq,WndProc]

/-- As many turns as there are messages empty the queue, and show its texts. -/
theorem drain (limit : ℕ) (w : Window) :
    ((machine limit).after w (List.replicate w.queue.length .dispatch)).queue = [] ∧
      ((machine limit).after w (List.replicate w.queue.length .dispatch)).edit =
        w.edit ++ pendingText w := by
  generalize hn : w.queue.length = n
  induction n generalizing w with
  | zero =>
    have hq : w.queue = [] := List.length_eq_zero_iff.mp hn
    simp [Machine.after,hq,pendingText]
  | succ n ih =>
    have htail : (dispatch w).queue.length = n := by
      rw [dispatch_queue,List.length_tail,hn]
      rfl
    obtain ⟨hqueue,hedit⟩ := ih (dispatch w) htail
    have hstep : (dispatch w).edit ++ pendingText (dispatch w) = w.edit ++ pendingText w ++ [] :=
      step_text (show Fits limit w .dispatch from trivial)
    rw [List.replicate_succ,Machine.after_cons,next_dispatch]
    exact ⟨hqueue,hedit.trans (hstep.trans (List.append_nil _))⟩

/-- Texts posted while nothing is dispatched, as long as the queue takes them. -/
theorem posts (limit : ℕ) {n : ℕ} (h : n ≤ limit) :
    ((machine limit).after initial (List.replicate n (.appendText [65]))).queue.length = n ∧
      (((machine limit).after initial (List.replicate n (.appendText [65]))).edit ++
        pendingText ((machine limit).after initial (List.replicate n (.appendText [65])))).length =
          n := by
  induction n with
  | zero => exact ⟨rfl,rfl⟩
  | succ n ih =>
    obtain ⟨hqueue,htext⟩ := ih (Nat.le_of_succ_le h)
    rw [List.replicate_succ',Machine.after_concat]
    generalize (machine limit).after initial (List.replicate n (.appendText [65])) = w at *
    have hroom : Fits limit w (.appendText [65]) := hqueue.trans_lt h
    have hstep := step_text hroom
    refine ⟨?_,?_⟩
    · have hlt : n < limit := h
      simp [appendText,PostMessage,hqueue,hlt]
    · rw [hstep,List.length_append,htext]
      rfl

/-- Whatever the limit, one text more than the queue takes is lost. -/
theorem full_queue_loses_text : ¬ ∃ limit : ℕ, ∀ as : List Action,
    ((machine limit).after initial as).queue = [] →
      ((machine limit).after initial as).edit = passedText as ∧
        Ledger.Settled ((machine limit).after initial as).heap := by
  rintro ⟨limit,h⟩
  obtain ⟨hqueue,htext⟩ := posts limit le_rfl
  have hrun := h (List.replicate limit (.appendText [65]) ++
    .appendText [65]::List.replicate limit .dispatch)
  rw [Machine.after_append,Machine.after_cons,next_appendText] at hrun
  generalize (machine limit).after initial (List.replicate limit (.appendText [65])) = w at *
  -- the post of the last text fails, and its window is the one before but for the heap
  have hfull : (appendText limit w [65]).queue = w.queue := by
    simp [appendText,PostMessage,hqueue]
  have hdrain := drain limit (appendText limit w [65])
  rw [hfull,hqueue] at hdrain
  obtain ⟨hempty,hedit⟩ := hdrain
  have hshown := (hrun hempty).1
  rw [hedit] at hshown
  have hlength := congrArg List.length hshown
  have hpassed : (passedText (List.replicate limit (.appendText [65]) ++
      .appendText [65]::List.replicate limit .dispatch)).length = limit + 1 := by
    simp [passedText,Action.text,List.flatMap_replicate]
  have hsame : (appendText limit w [65]).edit ++ pendingText (appendText limit w [65]) =
      w.edit ++ pendingText w := by
    rw [pendingText,hfull]
    rfl
  rw [hpassed,hsame,htext] at hlength
  omega

end ReportQueue
end DrMingw
