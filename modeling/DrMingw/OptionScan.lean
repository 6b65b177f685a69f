import Mathlib.Tactic

/-! Options and operands in a list of arguments, over any characters and any long
options: one step of a reading, whole readings, and what they keep of the list. -/
namespace DrMingw
namespace OptionScan

inductive Arity
  | none | required | optional
  deriving DecidableEq

/-- What an argument is by itself. A cluster has a letter for each short option. -/
inductive Word (C L : Type)
  | operand
  | stop
  | cluster (c : C) (letters : List C)
  | long (o : L) (value : Option (List C))
  | stray

/-- Operands are passed over, end the options, or are reported where they stand. -/
inductive Order
  | permute | posix | inOrder
  deriving DecidableEq

structure Grammar (C L : Type) where
  word : List C → Word C L
  letter : C → Option Arity
  arity : L → Arity
  order : Order
  /-- An unknown letter takes the rest of its cluster with it. -/
  abandons : Bool

inductive Key (C L : Type)
  | letter (c : C)
  | long (o : L)

inductive Event (C L : Type)
  | option (k : Key C L) (value : Option (List C))
  | unknown (c : C)
  | missing (k : Key C L)
  | excess (o : L)
  | stray (a : List C)
  | operand (a : List C)

/-- The list ended where an option needed one more argument. -/
@[simp] def Event.Misses {C L : Type} : Event C L → Prop
  | .missing _ => True
  | _ => False

/-- The letters left of the last argument taken, and the arguments not looked at. -/
structure Place (C : Type) where
  letters : List C
  args : List (List C)

/-- An event, the arguments it takes, and where the reading stands after it. -/
structure Step (C L : Type) where
  event : Event C L
  used : List (List C)
  next : Place C

inductive Move (C L : Type)
  | step (skipped : List (List C)) (s : Step C L)
  /-- The end: arguments passed over, the stop marker, the arguments behind it. -/
  | done (skipped used rest : List (List C)) (stopped : Bool)

/-- A whole reading. -/
structure Reading (C L : Type) where
  events : List (Event C L) := []
  used : List (List C) := []
  operands : List (List C) := []
  stopped : Bool := false

variable {C L : Type}

namespace Reading

def append (r r' : Reading C L) : Reading C L where
  events := r.events ++ r'.events
  used := r.used ++ r'.used
  operands := r.operands ++ r'.operands
  stopped := r.stopped || r'.stopped

/-- The reading that begins with one step. -/
def after (skipped : List (List C)) (s : Step C L) (r : Reading C L) : Reading C L where
  events := s.event :: r.events
  used := s.used ++ r.used
  operands := skipped ++ r.operands
  stopped := r.stopped

end Reading

namespace Grammar

variable (G : Grammar C L)

/-- A letter with the rest of its cluster and the arguments behind it. -/
def readLetter (c : C) (cs : List C) (args : List (List C)) : Step C L :=
  match G.letter c, cs, args with
  | Option.none, cs, args => ⟨.unknown c,[],⟨if G.abandons then [] else cs,args⟩⟩
  | some .none, cs, args => ⟨.option (.letter c) none,[],⟨cs,args⟩⟩
  | some _, d::cs, args => ⟨.option (.letter c) (some (d::cs)),[],⟨[],args⟩⟩
  | some .optional, [], args => ⟨.option (.letter c) none,[],⟨[],args⟩⟩
  | some .required, [], [] => ⟨.missing (.letter c),[],⟨[],[]⟩⟩
  | some .required, [], a::args => ⟨.option (.letter c) (some a),[a],⟨[],args⟩⟩

/-- A long option with the value attached to it and the arguments behind it. -/
def readLong (o : L) (value : Option (List C)) (args : List (List C)) : Step C L :=
  match G.arity o, value, args with
  | .none, some _, args => ⟨.excess o,[],⟨[],args⟩⟩
  | .required, Option.none, [] => ⟨.missing (.long o),[],⟨[],[]⟩⟩
  | .required, Option.none, a::args => ⟨.option (.long o) (some a),[a],⟨[],args⟩⟩
  | _, value, args => ⟨.option (.long o) value,[],⟨[],args⟩⟩

end Grammar

/-- The value an option of an arity can come with. -/
def Arity.Fits {V : Type} : Arity → Option V → Prop
  | .none, value => value = Option.none
  | .required, value => value ≠ Option.none
  | .optional, _ => True

/-- The long option is one that arguments stand for. -/
def Grammar.IsLong (G : Grammar C L) (o : L) : Prop := ∃ a value, G.word a = .long o value

/-- The events that readings by a grammar are made of. -/
def Event.Of (G : Grammar C L) : Event C L → Prop
  | .option (.letter c) value => ∃ k, G.letter c = some k ∧ k.Fits value
  | .option (.long o) value => G.IsLong o ∧ (G.arity o).Fits value
  | .unknown c => G.letter c = Option.none
  | .missing (.letter c) => G.letter c = some .required
  | .missing (.long o) => G.IsLong o ∧ G.arity o = .required
  | .excess o => G.IsLong o ∧ G.arity o = .none
  | .stray a => G.word a = .stray
  | .operand a => G.word a = .operand ∧ G.order = .inOrder

/-- The argument a step starts from is taken too. -/
def Step.using (s : Step C L) (a : List C) : Step C L := { s with used := a :: s.used }

def Move.skip (a : List C) : Move C L → Move C L
  | .step skipped s => .step (a::skipped) s
  | .done skipped used rest stopped => .done (a::skipped) used rest stopped

/-- More arguments behind those a step has left. -/
def Step.followedBy (s : Step C L) (more : List (List C)) : Step C L :=
  { s with next := ⟨s.next.letters,s.next.args ++ more⟩ }

namespace Grammar

variable (G : Grammar C L)

/-- The next move from between two arguments. -/
def readArgs : List (List C) → Move C L
  | [] => .done [] [] [] false
  | a::args =>
    match G.word a with
    | .operand =>
      match G.order with
      | .permute => (readArgs args).skip a
      | .posix => .done [] [] (a::args) true
      | .inOrder => .step [] ⟨.operand a,[a],⟨[],args⟩⟩
    | .stop => .done [] [a] args true
    | .cluster c cs => .step [] ((G.readLetter c cs args).using a)
    | .long o value => .step [] ((G.readLong o value args).using a)
    | .stray => .step [] ⟨.stray a,[a],⟨[],args⟩⟩

def read (p : Place C) : Move C L :=
  match p.letters with
  | [] => G.readArgs p.args
  | c::cs => .step [] (G.readLetter c cs p.args)

end Grammar

theorem Move.skip_step {a : List C} {m : Move C L} {skipped : List (List C)} {s : Step C L}
    (h : m.skip a = .step skipped s) : ∃ rest, skipped = a::rest ∧ m = .step rest s := by
  cases m with
  | step skipped' s' =>
    obtain ⟨rfl,rfl⟩ := Move.step.inj h
    exact ⟨skipped',rfl,rfl⟩
  | done => simp [Move.skip] at h

theorem Move.skip_done {a : List C} {m : Move C L} {skipped used operands : List (List C)}
    {stopped : Bool} (h : m.skip a = .done skipped used operands stopped) :
    ∃ rest, skipped = a::rest ∧ m = .done rest used operands stopped := by
  cases m with
  | step => simp [Move.skip] at h
  | done skipped' used' operands' stopped' =>
    obtain ⟨rfl,rfl,rfl,rfl⟩ := Move.done.inj h
    exact ⟨skipped',rfl,rfl⟩

/-- Every step leaves fewer arguments, or as many and fewer letters. -/
def Place.size (p : Place C) : ℕ ×ₗ ℕ := toLex (p.args.length,p.letters.length)

namespace Grammar

variable {G : Grammar C L}

theorem readLetter_args (c : C) (cs : List C) (args : List (List C)) :
    (G.readLetter c cs args).used ++ (G.readLetter c cs args).next.args = args := by
  fun_cases G.readLetter c cs args <;> rfl

theorem readLetter_letters (c : C) (cs : List C) (args : List (List C)) :
    (G.readLetter c cs args).next.letters.length ≤ cs.length := by
  fun_cases G.readLetter c cs args <;> simp
  split <;> simp

theorem readLong_args (o : L) (value : Option (List C)) (args : List (List C)) :
    (G.readLong o value args).used ++ (G.readLong o value args).next.args = args := by
  fun_cases G.readLong o value args <;> rfl

theorem readLetter_of (c : C) (cs : List C) (args : List (List C)) :
    (G.readLetter c cs args).event.Of G := by
  fun_cases G.readLetter c cs args with
  | case1 cs args h => exact h
  | case2 cs args h => exact ⟨.none,h,rfl⟩
  | case3 k d cs args hk h =>
    refine ⟨k,h,?_⟩
    cases k with
    | none => exact (hk rfl).elim
    | required => simp [Arity.Fits]
    | optional => trivial
  | case4 args h => exact ⟨.optional,h,trivial⟩
  | case5 h => exact h
  | case6 a args h => exact ⟨.required,h,by simp [Arity.Fits]⟩

theorem readLong_of {o : L} (ho : G.IsLong o) (value : Option (List C)) (args : List (List C)) :
    (G.readLong o value args).event.Of G := by
  cases hk : G.arity o with
  | none => cases value <;> simp [readLong,hk,Event.Of,Arity.Fits,ho]
  | optional => cases value <;> simp [readLong,hk,Event.Of,Arity.Fits,ho]
  | required => cases value <;> cases args <;> simp [readLong,hk,Event.Of,Arity.Fits,ho]

theorem readArgs_of {args skipped : List (List C)} {s : Step C L}
    (h : G.readArgs args = .step skipped s) : s.event.Of G := by
  induction args generalizing skipped with
  | nil => simp [readArgs] at h
  | cons a args ih =>
    simp only [readArgs] at h
    cases hw : G.word a with
    | operand =>
      simp only [hw] at h
      cases ho : G.order with
      | permute =>
        simp only [ho] at h
        obtain ⟨rest,-,hr⟩ := Move.skip_step h
        exact ih hr
      | posix => simp [ho] at h
      | inOrder =>
        simp only [ho,Move.step.injEq] at h
        obtain ⟨rfl,rfl⟩ := h
        exact ⟨hw,ho⟩
    | stop => simp [hw] at h
    | cluster c cs =>
      simp only [hw,Move.step.injEq] at h
      obtain ⟨rfl,rfl⟩ := h
      exact readLetter_of c cs args
    | long o value =>
      simp only [hw,Move.step.injEq] at h
      obtain ⟨rfl,rfl⟩ := h
      exact readLong_of ⟨a,value,hw⟩ value args
    | stray =>
      simp only [hw,Move.step.injEq] at h
      obtain ⟨rfl,rfl⟩ := h
      exact hw

/-- What is reported is what the grammar says of a letter, an option or an argument. -/
theorem read_of {p : Place C} {skipped : List (List C)} {s : Step C L}
    (h : G.read p = .step skipped s) : s.event.Of G := by
  obtain ⟨letters,args⟩ := p
  cases letters with
  | nil => exact readArgs_of h
  | cons c cs =>
    simp only [read,Move.step.injEq] at h
    obtain ⟨rfl,rfl⟩ := h
    exact readLetter_of c cs args

/-- A step from between two arguments takes at least one of them. -/
theorem readArgs_step {args skipped : List (List C)} {s : Step C L}
    (h : G.readArgs args = .step skipped s) :
    s.used ≠ [] ∧ args = skipped ++ s.used ++ s.next.args := by
  induction args generalizing skipped with
  | nil => simp [readArgs] at h
  | cons a args ih =>
    simp only [readArgs] at h
    cases hw : G.word a with
    | operand =>
      rw [hw] at h
      cases ho : G.order with
      | permute =>
        simp only [ho] at h
        obtain ⟨rest,rfl,hr⟩ := Move.skip_step h
        obtain ⟨hne,he⟩ := ih hr
        exact ⟨hne,by rw [List.cons_append,List.cons_append,← he]⟩
      | posix => simp [ho] at h
      | inOrder =>
        simp only [ho,Move.step.injEq] at h
        obtain ⟨rfl,rfl⟩ := h
        simp
    | stop => simp [hw] at h
    | cluster c cs =>
      simp only [hw,Move.step.injEq] at h
      obtain ⟨rfl,rfl⟩ := h
      exact ⟨by simp [Step.using],by simp [Step.using,readLetter_args]⟩
    | long o value =>
      simp only [hw,Move.step.injEq] at h
      obtain ⟨rfl,rfl⟩ := h
      exact ⟨by simp [Step.using],by simp [Step.using,readLong_args]⟩
    | stray =>
      simp only [hw,Move.step.injEq] at h
      obtain ⟨rfl,rfl⟩ := h
      simp

theorem read_step {p : Place C} {skipped : List (List C)} {s : Step C L}
    (h : G.read p = .step skipped s) : p.args = skipped ++ s.used ++ s.next.args := by
  obtain ⟨letters,args⟩ := p
  cases letters with
  | nil => exact (readArgs_step h).2
  | cons c cs =>
    simp only [read,Move.step.injEq] at h
    obtain ⟨rfl,rfl⟩ := h
    exact (readLetter_args c cs args).symm

theorem read_size {p : Place C} {skipped : List (List C)} {s : Step C L}
    (h : G.read p = .step skipped s) : s.next.size < p.size := by
  obtain ⟨letters,args⟩ := p
  rw [Place.size,Place.size,Prod.Lex.toLex_lt_toLex]
  cases letters with
  | nil =>
    obtain ⟨hne,he⟩ := readArgs_step h
    have hpos : 0 < s.used.length := List.length_pos_of_ne_nil hne
    have hlength := congrArg List.length he
    simp only [List.length_append] at hlength
    left
    show s.next.args.length < args.length
    omega
  | cons c cs =>
    simp only [read,Move.step.injEq] at h
    obtain ⟨rfl,rfl⟩ := h
    have hargs := congrArg List.length (readLetter_args (G := G) c cs args)
    have hletters := readLetter_letters (G := G) c cs args
    simp only [List.length_append] at hargs
    simp only [List.length_cons]
    omega

variable (G) in
/-- All moves from a place on. -/
def scan (p : Place C) : Reading C L :=
  match _h : G.read p with
  | .step skipped s => (scan s.next).after skipped s
  | .done skipped used rest stopped => ⟨[],used,skipped ++ rest,stopped⟩
termination_by p.size
decreasing_by exact read_size _h

theorem scan_step {p : Place C} {skipped : List (List C)} {s : Step C L}
    (h : G.read p = .step skipped s) : G.scan p = (G.scan s.next).after skipped s := by
  rw [scan]
  split
  · next h' =>
    obtain ⟨rfl,rfl⟩ := Move.step.inj (h.symm.trans h')
    rfl
  · next h' => simp [h] at h'

theorem scan_done {p : Place C} {skipped used rest : List (List C)} {stopped : Bool}
    (h : G.read p = .done skipped used rest stopped) :
    G.scan p = ⟨[],used,skipped ++ rest,stopped⟩ := by
  rw [scan]
  split
  · next h' => simp [h] at h'
  · next h' =>
    obtain ⟨rfl,rfl,rfl,rfl⟩ := Move.done.inj (h.symm.trans h')
    rfl

/-- An operand is passed over where operands are. -/
theorem scan_skip {a : List C} (ha : G.word a = .operand) (ho : G.order = .permute)
    (args : List (List C)) :
    G.scan ⟨[],a::args⟩ = (⟨[],[],[a],false⟩ : Reading C L).append (G.scan ⟨[],args⟩) := by
  have hread : G.read ⟨[],a::args⟩ = (G.read ⟨[],args⟩).skip a := by simp [read,readArgs,ha,ho]
  cases h : G.read ⟨[],args⟩ with
  | step skipped s =>
    rw [scan_step h,scan_step (hread.trans (by rw [h]; rfl))]
    simp [Reading.append,Reading.after]
  | done skipped used rest stopped =>
    rw [scan_done h,scan_done (hread.trans (by rw [h]; rfl))]
    simp [Reading.append]

/-- A reading by its steps: the rule for whatever holds of whole readings. -/
theorem scan_induction {motive : Place C → Prop}
    (step : ∀ p skipped s, G.read p = .step skipped s → motive s.next → motive p)
    (done : ∀ p skipped used rest stopped,
      G.read p = .done skipped used rest stopped → motive p) (p : Place C) : motive p := by
  induction p using scan.induct (G := G) with
  | case1 p skipped s h ih => exact step p skipped s h ih
  | case2 p skipped used rest stopped h => exact done p skipped used rest stopped h

/-- At the end nothing is left out, and only a stop or an operand in front of the
options leaves something behind. -/
theorem readArgs_done {args skipped used rest : List (List C)} {stopped : Bool}
    (h : G.readArgs args = .done skipped used rest stopped) :
    args = skipped ++ used ++ rest ∧ (stopped = false → used = [] ∧ rest = []) := by
  induction args generalizing skipped with
  | nil =>
    simp only [readArgs,Move.done.injEq] at h
    obtain ⟨rfl,rfl,rfl,rfl⟩ := h
    simp
  | cons a args ih =>
    simp only [readArgs] at h
    cases hw : G.word a with
    | operand =>
      rw [hw] at h
      cases ho : G.order with
      | permute =>
        simp only [ho] at h
        obtain ⟨passed,rfl,hr⟩ := Move.skip_done h
        obtain ⟨he,hstop⟩ := ih hr
        exact ⟨by rw [List.cons_append,List.cons_append,← he],hstop⟩
      | posix =>
        simp only [ho,Move.done.injEq] at h
        obtain ⟨rfl,rfl,rfl,rfl⟩ := h
        simp
      | inOrder => simp [ho] at h
    | stop =>
      simp only [hw,Move.done.injEq] at h
      obtain ⟨rfl,rfl,rfl,rfl⟩ := h
      simp
    | cluster c cs => simp [hw] at h
    | long o value => simp [hw] at h
    | stray => simp [hw] at h

theorem read_done {p : Place C} {skipped used rest : List (List C)} {stopped : Bool}
    (h : G.read p = .done skipped used rest stopped) :
    p.letters = [] ∧ G.readArgs p.args = .done skipped used rest stopped := by
  obtain ⟨letters,args⟩ := p
  cases letters with
  | nil => exact ⟨rfl,h⟩
  | cons c cs => simp [read] at h

/-- Options and operands keep their order among themselves. -/
theorem scan_sublist (p : Place C) :
    (G.scan p).used.Sublist p.args ∧ (G.scan p).operands.Sublist p.args := by
  induction p using scan_induction (G := G) with
  | step p skipped s h ih =>
    rw [scan_step h,read_step h]
    constructor
    · exact ((List.sublist_append_right skipped s.used).append ih.1)
    · exact ((List.sublist_append_left skipped s.used).append ih.2)
  | done p skipped used rest stopped h =>
    rw [scan_done h,(readArgs_done (read_done h).2).1]
    exact ⟨(List.sublist_append_right skipped used).trans (List.sublist_append_left _ rest),
      (List.sublist_append_left skipped used).append (List.Sublist.refl rest)⟩

/-- Every argument is taken by an option or left as an operand, once. -/
theorem scan_perm (p : Place C) :
    ((G.scan p).used ++ (G.scan p).operands).Perm p.args := by
  induction p using scan_induction (G := G) with
  | step p skipped s h ih =>
    rw [scan_step h,read_step h]
    calc (s.used ++ (G.scan s.next).used) ++ (skipped ++ (G.scan s.next).operands)
        = s.used ++ ((G.scan s.next).used ++ (skipped ++ (G.scan s.next).operands)) := by simp
      List.Perm _ (s.used ++ (skipped ++ ((G.scan s.next).used ++ (G.scan s.next).operands))) :=
          (List.perm_append_comm_assoc _ _ _).append_left _
      List.Perm _ (s.used ++ (skipped ++ s.next.args)) := (ih.append_left skipped).append_left _
      List.Perm _ (skipped ++ (s.used ++ s.next.args)) := List.perm_append_comm_assoc _ _ _
      _ = skipped ++ s.used ++ s.next.args := by simp
  | done p skipped used rest stopped h =>
    rw [scan_done h,(readArgs_done (read_done h).2).1,List.append_assoc]
    exact List.perm_append_comm_assoc _ _ _

variable (G) in
/-- The events between two places of one reading, and the arguments they take. -/
inductive Path : Place C → List (Event C L) → List (List C) → Place C → Prop
  | nil (p : Place C) : Path p [] [] p
  | cons {p q skipped s events used} (h : G.read p = .step skipped s)
    (hp : Path s.next events used q) : Path p (s.event::events) (s.used ++ used) q

theorem Path.trans {p q r : Place C} {events more : List (Event C L)} {used used' : List (List C)}
    (h : G.Path p events used q) (h' : G.Path q more used' r) :
    G.Path p (events ++ more) (used ++ used') r := by
  induction h with
  | nil p => exact h'
  | cons hread _ ih =>
    rw [List.append_assoc]
    exact .cons hread (ih h')

/-- Every event of a reading is reached. -/
theorem path_of_events {p : Place C} {seen rest : List (Event C L)}
    (h : (G.scan p).events = seen ++ rest) :
    ∃ used q, G.Path p seen used q ∧ (G.scan q).events = rest := by
  induction seen generalizing p with
  | nil => exact ⟨[],p,.nil p,h⟩
  | cons e seen ih =>
    cases hread : G.read p with
    | done => simp [scan_done hread] at h
    | step skipped s =>
      rw [scan_step hread] at h
      obtain ⟨rfl,htail⟩ := List.cons.inj h
      obtain ⟨used,q,hq,hrest⟩ := ih htail
      exact ⟨_,q,.cons hread hq,hrest⟩

theorem readLetter_append {c : C} {cs : List C} {args : List (List C)}
    (h : ¬(G.readLetter c cs args).event.Misses) (more : List (List C)) :
    G.readLetter c cs (args ++ more) = (G.readLetter c cs args).followedBy more := by
  revert h
  fun_cases G.readLetter c cs args <;> intro h <;> simp_all [readLetter,Step.followedBy]

theorem readLong_append {o : L} {value : Option (List C)} {args : List (List C)}
    (h : ¬(G.readLong o value args).event.Misses) (more : List (List C)) :
    G.readLong o value (args ++ more) = (G.readLong o value args).followedBy more := by
  revert h
  rcases hk : G.arity o <;> cases value <;> cases args <;> intro h <;>
    simp_all [readLong,Step.followedBy]

/-- A step that found all it needed does not look at what is added behind. -/
theorem readArgs_append {args skipped : List (List C)} {s : Step C L}
    (h : G.readArgs args = .step skipped s) (hm : ¬s.event.Misses) (more : List (List C)) :
    G.readArgs (args ++ more) = .step skipped (s.followedBy more) := by
  induction args generalizing skipped with
  | nil => simp [readArgs] at h
  | cons a args ih =>
    simp only [readArgs,List.cons_append] at h ⊢
    cases hw : G.word a with
    | operand =>
      simp only [hw] at h
      cases ho : G.order with
      | permute =>
        simp only [ho] at h
        obtain ⟨rest,rfl,hr⟩ := Move.skip_step h
        simp [ih hr,Move.skip]
      | posix => simp [ho] at h
      | inOrder =>
        simp only [ho,Move.step.injEq] at h
        obtain ⟨rfl,rfl⟩ := h
        rfl
    | stop => simp [hw] at h
    | cluster c cs =>
      simp only [hw,Move.step.injEq] at h
      obtain ⟨rfl,rfl⟩ := h
      simp only [readLetter_append hm]
      rfl
    | long o value =>
      simp only [hw,Move.step.injEq] at h
      obtain ⟨rfl,rfl⟩ := h
      simp only [readLong_append hm]
      rfl
    | stray =>
      simp only [hw,Move.step.injEq] at h
      obtain ⟨rfl,rfl⟩ := h
      rfl

/-- A reading that has run out of arguments goes on with what is added behind. -/
theorem readArgs_append_done {args skipped used rest : List (List C)}
    (h : G.readArgs args = .done skipped used rest false) (more : List (List C)) :
    G.scan ⟨[],args ++ more⟩ = (⟨[],[],skipped,false⟩ : Reading C L).append (G.scan ⟨[],more⟩) := by
  induction args generalizing skipped with
  | nil =>
    obtain ⟨rfl,-⟩ := Move.done.inj h
    simp [Reading.append]
  | cons a args ih =>
    simp only [readArgs] at h
    cases hw : G.word a with
    | operand =>
      simp only [hw] at h
      cases ho : G.order with
      | permute =>
        simp only [ho] at h
        obtain ⟨passed,rfl,hr⟩ := Move.skip_done h
        have hskip : G.scan ⟨[],a::(args ++ more)⟩ =
            (⟨[],[],[a],false⟩ : Reading C L).append (G.scan ⟨[],args ++ more⟩) :=
          scan_skip hw ho (args ++ more)
        rw [List.cons_append,hskip,ih hr]
        simp [Reading.append]
      | posix => simp [ho] at h
      | inOrder => simp [ho] at h
    | stop => simp [hw] at h
    | cluster c cs => simp [hw] at h
    | long o value => simp [hw] at h
    | stray => simp [hw] at h

theorem read_append {p : Place C} {skipped : List (List C)} {s : Step C L}
    (h : G.read p = .step skipped s) (hm : ¬s.event.Misses) (more : List (List C)) :
    G.read ⟨p.letters,p.args ++ more⟩ = .step skipped (s.followedBy more) := by
  obtain ⟨letters,args⟩ := p
  cases letters with
  | nil => exact readArgs_append h hm more
  | cons c cs =>
    simp only [read,Move.step.injEq] at h
    obtain ⟨rfl,rfl⟩ := h
    simp [read,readLetter_append hm]

/-- Readings compose: where the first part is read to its end and no option at the
end of it lacks its argument, the second is read as if it stood alone. -/
theorem scan_append (p : Place C) (hs : (G.scan p).stopped = false)
    (hm : ∀ e ∈ (G.scan p).events, ¬e.Misses) (more : List (List C)) :
    G.scan ⟨p.letters,p.args ++ more⟩ = (G.scan p).append (G.scan ⟨[],more⟩) := by
  induction p using scan_induction (G := G) with
  | step p skipped s h ih =>
    rw [scan_step h] at hs hm ⊢
    have hfirst : ¬s.event.Misses := hm s.event List.mem_cons_self
    have hrest : ∀ e ∈ (G.scan s.next).events, ¬e.Misses :=
      fun e he => hm e (List.mem_cons_of_mem _ he)
    rw [scan_step (read_append h hfirst more)]
    simp only [Step.followedBy,ih hs hrest]
    simp [Reading.after,Reading.append]
  | done p skipped used rest stopped h =>
    rw [scan_done h] at hs ⊢
    obtain rfl : stopped = false := hs
    obtain ⟨hl,hr⟩ := read_done h
    obtain ⟨rfl,rfl⟩ := (readArgs_done hr).2 rfl
    rw [hl,readArgs_append_done hr,List.append_nil]

/-- Where the first part is read to its end, only operands lie between its last option
and what is added behind. -/
theorem path_append (p : Place C) (hs : (G.scan p).stopped = false)
    (hm : ∀ e ∈ (G.scan p).events, ¬e.Misses) (more : List (List C)) :
    ∃ operands used, G.readArgs operands = .done operands [] [] false ∧
      G.Path ⟨p.letters,p.args ++ more⟩ (G.scan p).events used ⟨[],operands ++ more⟩ := by
  induction p using scan_induction (G := G) with
  | step p skipped s h ih =>
    rw [scan_step h] at hs hm ⊢
    have hfirst : ¬s.event.Misses := hm s.event List.mem_cons_self
    obtain ⟨operands,used,hread,hpath⟩ := ih hs fun e he => hm e (List.mem_cons_of_mem _ he)
    exact ⟨operands,_,hread,.cons (s := s.followedBy more) (read_append h hfirst more) hpath⟩
  | done p skipped used rest stopped h =>
    rw [scan_done h] at hs ⊢
    obtain rfl : stopped = false := hs
    obtain ⟨hl,hr⟩ := read_done h
    obtain ⟨hargs,hrest⟩ := readArgs_done hr
    obtain ⟨rfl,rfl⟩ := hrest rfl
    rw [List.append_nil,List.append_nil] at hargs
    refine ⟨p.args,[],?_,hl ▸ .nil _⟩
    rw [hr,← hargs]

/-- Operands in front are passed over. -/
theorem readArgs_operands {operands : List (List C)}
    (h : G.readArgs operands = .done operands [] [] false) {args skipped : List (List C)}
    {s : Step C L} (hs : G.readArgs args = .step skipped s) :
    G.readArgs (operands ++ args) = .step (operands ++ skipped) s := by
  induction operands with
  | nil => exact hs
  | cons a operands ih =>
    simp only [readArgs,List.cons_append] at h ⊢
    cases hw : G.word a with
    | operand =>
      simp only [hw] at h
      cases ho : G.order with
      | permute =>
        simp only [ho] at h
        obtain ⟨rest,he,hr⟩ := Move.skip_done h
        obtain rfl := (List.cons.inj he).2
        simp [ih hr,Move.skip]
      | posix => simp [ho] at h
      | inOrder => simp [ho] at h
    | stop => simp [hw] at h
    | cluster c cs => simp [hw] at h
    | long o value => simp [hw] at h
    | stray => simp [hw] at h

/-- From an argument on, over the letters in it, behind operands passed over. -/
theorem Path.of_cluster {a : List C} {c : C} {cs : List C} (ha : G.word a = .cluster c cs)
    {operands args used : List (List C)}
    (hoperands : G.readArgs operands = .done operands [] [] false) {events : List (Event C L)}
    {q : Place C} (h : G.Path ⟨c::cs,args⟩ events used q) (hevents : events ≠ []) :
    G.Path ⟨[],operands ++ a::args⟩ events (a::used) q := by
  cases h with
  | nil => exact absurd rfl hevents
  | cons hread hp =>
    obtain ⟨rfl,rfl⟩ := Move.step.inj hread
    have hargs : G.readArgs (a::args) = .step [] ((G.readLetter c cs args).using a) := by
      simp [readArgs,ha]
    have hskip : G.read ⟨[],operands ++ a::args⟩ =
        .step (operands ++ []) ((G.readLetter c cs args).using a) :=
      readArgs_operands hoperands hargs
    exact .cons hskip hp

/-- Flags, and a letter that is none: they take nothing but their own letters. -/
theorem path_unknown {flags : List C} (hflags : ∀ f ∈ flags, G.letter f = some .none) {c : C}
    (hc : G.letter c = Option.none) (hleaves : G.abandons = false) (letters : List C)
    (args : List (List C)) :
    G.Path ⟨flags ++ c::letters,args⟩
      ((flags.map fun f => .option (.letter f) Option.none) ++ [.unknown c]) [] ⟨letters,args⟩ := by
  induction flags with
  | nil =>
    have hread : G.read ⟨c::letters,args⟩ = .step [] ⟨.unknown c,[],⟨letters,args⟩⟩ := by
      simp [read,readLetter,hc,hleaves]
    exact .cons hread (.nil _)
  | cons f flags ih =>
    obtain ⟨hf,hflags⟩ := List.forall_mem_cons.mp hflags
    have hread : G.read ⟨f::(flags ++ c::letters),args⟩ =
        .step [] ⟨.option (.letter f) Option.none,[],⟨flags ++ c::letters,args⟩⟩ := by
      simp [read,readLetter,hf]
    exact .cons hread (ih hflags)

/-- Behind a stop everything is an operand. -/
theorem scan_stop {a : List C} (ha : G.word a = .stop) (args : List (List C)) :
    G.scan ⟨[],a::args⟩ = ⟨[],[a],args,true⟩ := by
  have h : G.read ⟨[],a::args⟩ = .done [] [a] args true := by simp [read,readArgs,ha]
  rw [scan_done h,List.nil_append]

end Grammar
end OptionScan
end DrMingw
