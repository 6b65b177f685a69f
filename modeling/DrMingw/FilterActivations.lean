import DrMingw.Machine
import DrMingw.Win32

/-! Activations of `TopLevelExceptionFilter` on any number of threads, nested where
a thread raises another exception on the way, and the counter they share. -/
namespace DrMingw
namespace FilterActivations

abbrev LONG := Int32

/-- Where an activation is. -/
inductive Point
  /-- Before `InterlockedIncrement`. -/
  | entry
  /-- With the value `InterlockedIncrement` has returned. -/
  | counted (n : LONG)
  /-- Past the test `== 1`, up to `InterlockedDecrement`. -/
  | report
  /-- The test has failed; before `InterlockedDecrement`. -/
  | passing
  /-- Past `InterlockedDecrement`. -/
  | left
  /-- `g_prevExceptionFilter` has been found set, and is called next. -/
  | forwarding
  /-- In the previous filter. -/
  | inPrevious
  | finished
  deriving DecidableEq

structure Activation where
  thread : ℕ
  point : Point
  deriving DecidableEq

/-- What an activation does with its exception. -/
inductive Answer (Filter : Type)
  | forward (f : Filter)
  /-- `EXCEPTION_CONTINUE_SEARCH`. -/
  | continueSearch
  deriving DecidableEq

structure State (Filter : Type) where
  g_bHandlerSet : Bool := false
  g_prevExceptionFilter : Option Filter := none
  /-- The top-level filter the system calls. -/
  installed : Option Filter
  cBeenHere : LONG := 0
  /-- All activations there have been, in the order of their exceptions. -/
  activations : List Activation := []

variable {Filter : Type}

/-- `TopLevelExceptionFilter` is the address of the DLL's own filter. -/
def SetupHandler (TopLevelExceptionFilter : Filter) (s : State Filter) : State Filter :=
  if s.g_bHandlerSet then s
  else
    { s with
      g_prevExceptionFilter := s.installed
      installed := some TopLevelExceptionFilter
      g_bHandlerSet := true }

def CleanupHandler (s : State Filter) : State Filter :=
  if s.g_bHandlerSet then
    { s with
      installed := s.g_prevExceptionFilter
      g_prevExceptionFilter := none
      g_bHandlerSet := false }
  else s

/-- One step of an activation: the counter and the point it leaves, and its answer. -/
def advance (g_prevExceptionFilter : Option Filter) (cBeenHere : LONG) :
    Point → LONG × Point × List (Answer Filter)
  | .entry => (cBeenHere + 1,.counted (cBeenHere + 1),[])
  | .counted n => (cBeenHere,if n = 1 then .report else .passing,[])
  | .report => (cBeenHere - 1,.left,[])
  | .passing => (cBeenHere - 1,.left,[])
  | .left =>
    match g_prevExceptionFilter with
    | some _ => (cBeenHere,.forwarding,[])
    | none => (cBeenHere,.finished,[.continueSearch])
  | .forwarding =>
    match g_prevExceptionFilter with
    | some f => (cBeenHere,.inPrevious,[.forward f])
    | none => (cBeenHere,.forwarding,[])
  | .inPrevious => (cBeenHere,.finished,[])
  | .finished => (cBeenHere,.finished,[])

inductive Move
  /-- A thread raises a top-level exception, also out of an activation of its own. -/
  | raise (thread : ℕ)
  | step (activation : ℕ)

/-- An activation waits for those nested in it on its thread. -/
def Runnable (s : State Filter) (i : ℕ) (thread : ℕ) : Prop :=
  ∀ b ∈ s.activations.drop (i + 1), b.thread = thread → b.point = .finished

instance (s : State Filter) (i thread : ℕ) : Decidable (Runnable s i thread) :=
  inferInstanceAs (Decidable (∀ b ∈ s.activations.drop (i + 1), _))

/-- One move; an answer is tagged with the activation that gives it. -/
def machine : Machine (State Filter) Move (ℕ × Answer Filter) where
  step s
    | .raise thread => ({ s with activations := s.activations ++ [⟨thread,.entry⟩] },[])
    | .step i =>
      match s.activations[i]? with
      | none => (s,[])
      | some a =>
        if Runnable s i a.thread then
          let r := advance s.g_prevExceptionFilter s.cBeenHere a.point
          ({ s with cBeenHere := r.1, activations := s.activations.set i ⟨a.thread,r.2.1⟩ },
            r.2.2.map (i,·))
        else (s,[])

variable (TopLevelExceptionFilter : Filter) (prev : Option Filter)

/-- The handler set up over the filter `prev`. -/
def start : State Filter := SetupHandler TopLevelExceptionFilter { installed := prev }

def after (ms : List Move) : State Filter := machine.after (start TopLevelExceptionFilter prev) ms

def answers (ms : List Move) : List (ℕ × Answer Filter) :=
  machine.trace (start TopLevelExceptionFilter prev) ms

/-- Between `InterlockedIncrement` and `InterlockedDecrement`. -/
def Point.isInside : Point → Bool
  | .counted _ | .report | .passing => true
  | .entry | .left | .forwarding | .inPrevious | .finished => false

/-- Between passing the test `== 1` and `InterlockedDecrement`. -/
def Point.isReport : Point → Bool
  | .report => true
  | .entry | .counted _ | .passing | .left | .forwarding | .inPrevious | .finished => false

def inside (s : State Filter) : ℕ := s.activations.countP (·.point.isInside)

def reporting (s : State Filter) : ℕ := s.activations.countP (·.point.isReport)

/-- In every state of the run fewer than `n` activations are between increment and
decrement. -/
def Below (n : ℕ) (ms : List Move) : Prop :=
  ∀ pre post, ms = pre ++ post → inside (after TopLevelExceptionFilter prev pre) < n

/-- What an activation has to do with its exception. -/
def due : Option Filter → Answer Filter
  | some f => .forward f
  | none => .continueSearch

/-- What the activation `i` has done with its exception. -/
def answersOf (i : ℕ) (as : List (ℕ × Answer Filter)) : List (Answer Filter) :=
  (as.filter fun x => x.1 = i).map (·.2)

section Proofs

variable {TopLevelExceptionFilter prev} {s : State Filter} {ms : List Move}

/-- Taking the handler out puts the previous filter back. -/
theorem cleanup_start : CleanupHandler (start TopLevelExceptionFilter prev) =
    { installed := prev } := rfl

/-- Replacing one activation changes a count by what the two count for. -/
theorem countP_replace {as : List Activation} {i : ℕ} {a b : Activation} (h : as[i]? = some a)
    (p : Activation → Bool) :
    (as.set i b).countP p + (if p a then 1 else 0) = as.countP p + if p b then 1 else 0 := by
  obtain ⟨hi,rfl⟩ := List.getElem?_eq_some_iff.mp h
  have hle : (if p as[i] then 1 else 0) ≤ as.countP p := by
    split
    · next hp => exact List.countP_pos_iff.mpr ⟨as[i],List.getElem_mem hi,hp⟩
    · exact Nat.zero_le _
  rw [List.countP_set hi]
  omega

/-- A move adds an activation at its entry, advances one, or does nothing. -/
theorem next_cases (s : State Filter) (m : Move) :
    (∃ thread, m = .raise thread ∧ machine.emit s m = [] ∧ machine.next s m =
      { s with activations := s.activations ++ [⟨thread,.entry⟩] }) ∨
    (∃ i a, m = .step i ∧ s.activations[i]? = some a ∧
      machine.emit s m =
        (advance s.g_prevExceptionFilter s.cBeenHere a.point).2.2.map (i,·) ∧
      machine.next s m =
        { s with
          cBeenHere := (advance s.g_prevExceptionFilter s.cBeenHere a.point).1
          activations := s.activations.set i
            ⟨a.thread,(advance s.g_prevExceptionFilter s.cBeenHere a.point).2.1⟩ }) ∨
    (machine.emit s m = [] ∧ machine.next s m = s) := by
  cases m with
  | raise thread => exact .inl ⟨thread,rfl,rfl,rfl⟩
  | step i =>
    cases ha : s.activations[i]? with
    | none => exact .inr (.inr (by simp [Machine.emit,Machine.next,machine,ha]))
    | some a =>
      by_cases hr : Runnable s i a.thread
      · exact .inr (.inl ⟨i,a,rfl,ha,by simp [Machine.emit,machine,ha,hr],
          by simp [Machine.next,machine,ha,hr]⟩)
      · exact .inr (.inr (by simp [Machine.emit,Machine.next,machine,ha,hr]))

theorem after_concat (ms : List Move) (m : Move) :
    after TopLevelExceptionFilter prev (ms ++ [m]) =
      machine.next (after TopLevelExceptionFilter prev ms) m := Machine.after_concat ..

theorem answers_concat (ms : List Move) (m : Move) :
    answers TopLevelExceptionFilter prev (ms ++ [m]) =
      answers TopLevelExceptionFilter prev ms ++
        machine.emit (after TopLevelExceptionFilter prev ms) m := by
  simp [answers,after,Machine.trace_append]

/-- A step changes the counter by what it changes inside. -/
theorem advance_counter (prev : Option Filter) (c : LONG) (p : Point) :
    (advance prev c p).1 + Int32.ofNat (if p.isInside then 1 else 0) =
      c + Int32.ofNat (if (advance prev c p).2.1.isInside then 1 else 0) := by
  cases p with
  | counted n =>
    by_cases hn : n = 1
    · simp [advance,Point.isInside,hn]
    · simp [advance,Point.isInside,hn]
  | left => cases prev <;> simp [advance,Point.isInside]
  | forwarding => cases prev <;> simp [advance,Point.isInside]
  | entry | report | passing | inPrevious | finished => simp [advance,Point.isInside]

/-- The counter is the number of activations inside, as far as a `LONG` goes. -/
def Counts (s : State Filter) : Prop := s.cBeenHere = Int32.ofNat (inside s)

theorem counts_next (h : Counts s) (m : Move) : Counts (machine.next s m) := by
  rcases next_cases s m with ⟨thread,-,-,hn⟩ | ⟨i,a,-,ha,-,hn⟩ | ⟨-,hn⟩
  · rw [hn]
    simpa [Counts,inside,Point.isInside] using h
  · have hc := congrArg Int32.ofNat (countP_replace (b:=⟨a.thread,(advance
      s.g_prevExceptionFilter s.cBeenHere a.point).2.1⟩) ha (·.point.isInside))
    have hs := advance_counter s.g_prevExceptionFilter s.cBeenHere a.point
    rw [hn]
    simp only [Counts,inside] at h ⊢
    rw [Int32.ofNat_add,Int32.ofNat_add,← h,← hs] at hc
    exact (Int32.add_left_inj _).mp hc.symm
  · rw [hn]
    exact h

theorem counts_after (ms : List Move) : Counts (after TopLevelExceptionFilter prev ms) := by
  have hstart : Counts (start TopLevelExceptionFilter prev) := rfl
  have hstep (s : State Filter) (m : Move) (h : Counts s) :
      Counts (machine.next s m) := counts_next h m
  exact Machine.after_invariant_all hstep hstart ms

/-- Counted as the only one, and on the way to the report or in it. -/
def Point.isWinner : Point → Bool
  | .counted n => n = 1
  | .report => true
  | .entry | .passing | .left | .forwarding | .inPrevious | .finished => false

def winners (s : State Filter) : ℕ := s.activations.countP (·.point.isWinner)

theorem isInside_of_isWinner {p : Point} (h : p.isWinner = true) : p.isInside = true := by
  cases p <;> simp [Point.isWinner] at h <;> rfl

theorem isWinner_of_isReport {p : Point} (h : p.isReport = true) : p.isWinner = true := by
  cases p <;> simp [Point.isReport] at h
  rfl

theorem winners_le_inside (s : State Filter) : winners s ≤ inside s :=
  List.countP_mono_left fun _ _ h => isInside_of_isWinner h

theorem reporting_le_winners (s : State Filter) : reporting s ≤ winners s :=
  List.countP_mono_left fun _ _ h => isWinner_of_isReport h

/-- Only an increment to 1 makes a winner. -/
theorem advance_winner {prev : Option Filter} {c : LONG} {p : Point}
    (h : (advance prev c p).2.1.isWinner = true) :
    p.isWinner = true ∨ p = .entry ∧ c + 1 = 1 := by
  cases p with
  | entry => exact .inr ⟨rfl,by simpa [advance,Point.isWinner] using h⟩
  | counted n =>
    by_cases hn : n = 1
    · exact .inl (by simp [Point.isWinner,hn])
    · simp [advance,Point.isWinner,hn] at h
  | left => cases prev <;> simp [advance,Point.isWinner] at h
  | forwarding => cases prev <;> simp [advance,Point.isWinner] at h
  | report => exact .inl rfl
  | passing | inPrevious | finished => simp [advance,Point.isWinner] at h

/-- The counter is zero only when nothing is inside, short of `2^32` activations. -/
theorem inside_eq_zero (h : Counts s) (hlt : inside s < 2^32) (hz : s.cBeenHere + 1 = 1) :
    inside s = 0 := by
  have hz' : s.cBeenHere = 0 := by simpa using hz
  rw [h] at hz'
  have hu := congrArg (fun x => (Int32.toUInt32 x).toNat) hz'
  have h0 : (Int32.toUInt32 0).toNat = 0 := rfl
  simp only [Int32.toUInt32_ofNat',UInt32.toNat_ofNat',h0] at hu
  omega

theorem winners_next (h : Counts s) (hlt : inside s < 2^32) (hw : winners s ≤ 1) (m : Move) :
    winners (machine.next s m) ≤ 1 := by
  rcases next_cases s m with ⟨thread,-,-,hn⟩ | ⟨i,a,-,ha,-,hn⟩ | ⟨-,hn⟩
  · rw [hn]
    simpa [winners,Point.isWinner] using hw
  · have hc := countP_replace (b:=⟨a.thread,(advance s.g_prevExceptionFilter s.cBeenHere
      a.point).2.1⟩) ha (·.point.isWinner)
    rw [hn]
    simp only [winners] at hw hc ⊢
    by_cases hx : (advance s.g_prevExceptionFilter s.cBeenHere a.point).2.1.isWinner = true
    · rcases advance_winner hx with hp | ⟨hp,h1⟩
      · simp only [hx,hp,if_true] at hc
        omega
      · have hle := winners_le_inside s
        have h0 := inside_eq_zero h hlt h1
        simp only [winners] at hle
        simp only [hx,if_true] at hc
        omega
    · simp only [hx] at hc
      simp only [Bool.false_eq_true,if_false] at hc
      omega
  · rw [hn]
    exact hw

theorem Below.prefix {n : ℕ} {m : Move}
    (h : Below TopLevelExceptionFilter prev n (ms ++ [m])) :
    Below TopLevelExceptionFilter prev n ms :=
  fun pre post hs => h pre (post ++ [m]) (by simp [hs])

theorem Below.last {n : ℕ} (h : Below TopLevelExceptionFilter prev n ms) :
    inside (after TopLevelExceptionFilter prev ms) < n := h ms [] (by simp)

/-- There are no more activations than moves. -/
theorem activations_length_le (ms : List Move) :
    (after TopLevelExceptionFilter prev ms).activations.length ≤ ms.length := by
  induction ms using List.reverseRecOn with
  | nil => exact Nat.zero_le 0
  | append_singleton ms m ih =>
    rw [after_concat,List.length_append,List.length_singleton]
    rcases next_cases (after TopLevelExceptionFilter prev ms) m with
      ⟨thread,-,-,hn⟩ | ⟨i,a,-,-,-,hn⟩ | ⟨-,hn⟩
    · rw [hn,List.length_append]
      exact Nat.succ_le_succ ih
    · rw [hn,List.length_set]
      omega
    · rw [hn]
      omega

theorem below_of_length {n : ℕ} (h : ms.length < n) :
    Below TopLevelExceptionFilter prev n ms := by
  rintro pre post rfl
  have hle : inside (after TopLevelExceptionFilter prev pre) ≤ pre.length :=
    List.countP_le_length.trans (activations_length_le pre)
  rw [List.length_append] at h
  omega

theorem winners_after (hlt : Below TopLevelExceptionFilter prev (2^32) ms) :
    winners (after TopLevelExceptionFilter prev ms) ≤ 1 := by
  induction ms using List.reverseRecOn with
  | nil => exact Nat.zero_le 1
  | append_singleton ms m ih =>
    rw [after_concat]
    exact winners_next (counts_after ms) hlt.prefix.last (ih hlt.prefix) m

/-- The moves made by threads leave the filters alone. -/
theorem prev_after (ms : List Move) :
    (after TopLevelExceptionFilter prev ms).g_prevExceptionFilter = prev := by
  have hstep (s : State Filter) (m : Move) (h : s.g_prevExceptionFilter = prev) :
      (machine.next s m).g_prevExceptionFilter = prev := by
    rcases next_cases s m with ⟨thread,-,-,hn⟩ | ⟨i,a,-,-,-,hn⟩ | ⟨-,hn⟩
    · rw [hn]; exact h
    · rw [hn]; exact h
    · rw [hn]; exact h
  exact Machine.after_invariant_all hstep rfl ms

/-- The exception has been passed on. -/
def Point.isAnswered : Point → Bool
  | .inPrevious | .finished => true
  | .entry | .counted _ | .report | .passing | .left | .forwarding => false

/-- The answers an activation has given: one if it has got that far, else none. -/
def given (prev : Option Filter) : Option Activation → List (Answer Filter)
  | some a => if a.point.isAnswered then [due prev] else []
  | none => []

/-- A new activation has given no answer. -/
theorem given_raise (prev : Option Filter) (as : List Activation) (thread j : ℕ) :
    given prev (as ++ [⟨thread,.entry⟩])[j]? = given prev as[j]? := by
  rcases Nat.lt_or_ge j as.length with hlt | hge
  · rw [List.getElem?_append_left hlt]
  · rw [List.getElem?_append_right hge,List.getElem?_eq_none hge]
    cases j - as.length with
    | zero => rfl
    | succ k => rfl

theorem given_set {as : List Activation} {i : ℕ} {a : Activation} (h : as[i]? = some a)
    (b : Activation) (j : ℕ) :
    given prev (as.set i b)[j]? = if i = j then given prev (some b) else given prev as[j]? := by
  have hi := (List.getElem?_eq_some_iff.mp h).1
  by_cases hij : i = j
  · subst hij
    simp [hi]
  · simp [hij]

/-- A step gives the answer that is due when it leaves for good, and no other time. -/
theorem advance_answers (prev : Option Filter) (c : LONG) (p : Point) :
    (if p.isAnswered then [due prev] else []) ++ (advance prev c p).2.2 =
      if (advance prev c p).2.1.isAnswered then [due prev] else [] := by
  cases p with
  | counted n => by_cases hn : n = 1 <;> simp [advance,Point.isAnswered,hn]
  | left => cases prev <;> simp [advance,Point.isAnswered,due]
  | forwarding => cases prev <;> simp [advance,Point.isAnswered,due]
  | entry | report | passing | inPrevious | finished => simp [advance,Point.isAnswered]

theorem answersOf_append (i : ℕ) (as bs : List (ℕ × Answer Filter)) :
    answersOf i (as ++ bs) = answersOf i as ++ answersOf i bs := by
  simp [answersOf]

theorem answersOf_tagged (i j : ℕ) (as : List (Answer Filter)) :
    answersOf i (as.map (j,·)) = if j = i then as else [] := by
  by_cases h : j = i <;> simp [answersOf,List.filter_map,Function.comp_def,h]

theorem answered_after (ms : List Move) (j : ℕ) :
    answersOf j (answers TopLevelExceptionFilter prev ms) =
      given prev (after TopLevelExceptionFilter prev ms).activations[j]? := by
  induction ms using List.reverseRecOn with
  | nil => rfl
  | append_singleton ms m ih =>
    rw [answers_concat,answersOf_append,after_concat,ih]
    rcases next_cases (after TopLevelExceptionFilter prev ms) m with
      ⟨thread,-,he,hn⟩ | ⟨i,a,-,ha,he,hn⟩ | ⟨he,hn⟩
    · rw [he,hn,given_raise]
      exact List.append_nil _
    · rw [he,hn,answersOf_tagged,prev_after,given_set ha]
      by_cases hij : i = j
      · subst hij
        simpa only [if_true,ha,given] using advance_answers prev _ a.point
      · simp [hij]
    · rw [he,hn]
      exact List.append_nil _

end Proofs

/-- After any moves of any threads: at most one activation reports, short of `2^32` at
once; the counter is the number of activations inside as a `LONG`, hence that number
itself short of `2^31`; and an activation has forwarded its exception once, or
continued the search when there is no previous filter, if it is past that. -/
theorem one_report_at_a_time (ms : List Move) :
    (Below TopLevelExceptionFilter prev (2^32) ms →
      reporting (after TopLevelExceptionFilter prev ms) ≤ 1) ∧
    (after TopLevelExceptionFilter prev ms).cBeenHere =
      Int32.ofNat (inside (after TopLevelExceptionFilter prev ms)) ∧
    (inside (after TopLevelExceptionFilter prev ms) < 2^31 →
      (after TopLevelExceptionFilter prev ms).cBeenHere.toInt =
        inside (after TopLevelExceptionFilter prev ms)) ∧
    ∀ i a, (after TopLevelExceptionFilter prev ms).activations[i]? = some a →
      answersOf i (answers TopLevelExceptionFilter prev ms) =
        if a.point.isAnswered then [due prev] else [] := by
  have hc : Counts (after TopLevelExceptionFilter prev ms) := counts_after ms
  refine ⟨fun hlt => ?_,hc,fun hlt => ?_,fun i a ha => ?_⟩
  · exact (reporting_le_winners _).trans (winners_after hlt)
  · rw [hc,Int32.toInt_ofNat_of_lt hlt]
  · rw [answered_after,ha,given]

/-- Thread 0 reports an exception while thread 1 raises one, and raises another out of its
report, which is passed on. -/
def nestedRun : List Move :=
  [.raise 0,.step 0,.step 0,.raise 1,.step 1,.raise 0,.step 2,.step 2,.step 1,.step 2,.step 2,.step 2]

theorem one_report_nestedRun :
    reporting (after 1 (some 9) nestedRun) ≤ 1 ∧
      (after 1 (some 9) nestedRun).cBeenHere.toInt = inside (after 1 (some 9) nestedRun) ∧
      answersOf 2 (answers 1 (some 9) nestedRun) = [.forward 9] := by
  obtain ⟨hone,-,hcounter,hanswers⟩ := one_report_at_a_time 1 (some 9) nestedRun
  exact ⟨hone (below_of_length (by decide)),hcounter (by decide),hanswers 2 ⟨0,.inPrevious⟩ (by decide)⟩

/-- Each of `n` threads raises an exception and gets past `InterlockedIncrement`. -/
def crowd : ℕ → List Move
  | 0 => []
  | n + 1 => crowd n ++ [.raise n] ++ [.step n]

/-- A new thread raises an exception and increments the counter. -/
theorem next_raise_step {s : State Filter} {n : ℕ} (h : s.activations.length = n) :
    machine.next (machine.next s (.raise n)) (.step n) =
      { s with
        cBeenHere := s.cBeenHere + 1
        activations := s.activations ++ [⟨n,.counted (s.cBeenHere + 1)⟩] } := by
  subst h
  simp [Machine.next,machine,Runnable,advance,List.set_append_right]

theorem crowd_inside (n : ℕ) :
    (after TopLevelExceptionFilter prev (crowd n)).activations.length = n ∧
      inside (after TopLevelExceptionFilter prev (crowd n)) = n := by
  induction n with
  | zero => exact ⟨rfl,rfl⟩
  | succ n ih =>
    obtain ⟨hl,hi⟩ := ih
    have hc (c : LONG) : (Point.counted c).isInside = true := rfl
    simp only [inside] at hi
    rw [crowd,after_concat,after_concat,next_raise_step hl]
    simp [hl,inside,hi,hc]

/-- With `2^31` activations inside, the counter is negative. -/
theorem crowd_overflows :
    inside (after 1 (none : Option ℕ) (crowd (2^31))) = 2^31 ∧
      (after 1 (none : Option ℕ) (crowd (2^31))).cBeenHere.toInt = -2^31 := by
  have hi := (crowd_inside 1 (none : Option ℕ) (2^31)).2
  have hc : Counts (after 1 (none : Option ℕ) (crowd (2^31))) := counts_after _
  refine ⟨hi,?_⟩
  rw [hc,hi]
  rfl

end FilterActivations
end DrMingw
