import DrMingw.GetOpt

/-! `getoptW` reads its argument list the way the grammar of its option string and its
long options says: call by call the events, and at the end the operands in order. -/
namespace DrMingw
namespace GetOpt

open OptionScan

/-- The text of a long option up to its value. -/
def nameOf (text : List WCHAR) : List WCHAR := text.takeWhile (· ≠ arg_assign)

def valueOf (text : List WCHAR) : Option (List WCHAR) :=
  match text.dropWhile (· ≠ arg_assign) with
  | [] => none
  | _::value => some value

/-- The long options a text may stand for. -/
def candidates (longopts : List LongOption) (text : List WCHAR) : List LongOption :=
  longopts.filter fun opt => (nameOf text).isPrefixOf opt.name

/-- Only the first two candidates count: an exact one, or the one there is. -/
def resolve (longopts : List LongOption) (text : List WCHAR) : Lookup :=
  match candidates longopts text with
  | [] => .unmatched
  | [opt] => .found opt
  | opt::opt'::_ =>
    if opt.name = nameOf text then .found opt
    else if opt'.name = nameOf text then .found opt'
    else .ambiguous

def LongOption.arity (opt : LongOption) : Arity :=
  match opt.has_arg with
  | .no_argument => .none
  | .required_argument => .required
  | .optional_argument => .optional

namespace Call

variable (g : Call)

def letterArity (c : WCHAR) : Option Arity :=
  (getoptW_match c g.optstring.chars).map fun optchar =>
    if optchar[1]? = some takes_argument then
      if optchar[2]? = some takes_argument then .optional else .required
    else .none

/-- The conventions the first call settles. -/
def established : ℕ :=
  getoptW_conventions g.posixlyCorrect (g.optstring.chars.headD 0).toNat 0

def order : Order :=
  if g.optstring.chars.head? = some switchar then .inOrder
  else if g.established &&& posixly_correct ≠ 0 then .posix
  else .permute

/-- A text taken for a long option. Behind one hyphen it may still be a cluster. -/
def longWord (mode : Mode) (text : List WCHAR) : Word WCHAR LongOption :=
  match resolve g.longopts text with
  | .found opt => .long opt (valueOf text)
  | _ =>
    match text with
    | [] => .stray
    | c::letters =>
      if mode = .long_only ∧ verifyLetters g.optstring.chars text then .cluster c letters
      else .stray

def word : List WCHAR → Word WCHAR LongOption
  | [] => .operand
  | [_] => .operand
  | c::c'::text =>
    if c = switchar then
      if c' = switchar then
        if text = [] then .stop
        else if g.mode = .standard then .cluster c' text
        else g.longWord .long text
      else if g.mode = .long_only then g.longWord .long_only (c'::text)
      else .cluster c' text
    else .operand

def grammar : Grammar WCHAR LongOption where
  word := g.word
  letter := g.letterArity
  arity := LongOption.arity
  order := g.order
  abandons := g.mode = .long_only

/-- What a call returns, and leaves in the public variables, on an event. -/
inductive Shows : Event WCHAR LongOption → ℤ → State → Prop
  | letter {c value s} (ho : s.optopt = c.toNat) (ha : s.optarg = value) :
    Shows (.option (.letter c) value) c.toNat s
  | long {opt value s} (ha : s.optarg = value) : Shows (.option (.long opt) value) opt.val s
  | unknown {c s} (ho : s.optopt = if g.mode = .long_only then 0 else (c.toNat : ℤ))
    (hi : s.optind = if s.nextchar ≠ [] then s.argind else s.argind + 1) :
    Shows (.unknown c) unknown s
  | missingLetter {c s} (ho : s.optopt = c.toNat) :
    Shows (.missing (.letter c)) (getoptW_missing_arg g.optstring.chars) s
  | missingLong {opt s} (ho : s.optopt = opt.val) :
    Shows (.missing (.long opt)) (getoptW_missing_arg g.optstring.chars) s
  | excess {opt s} (ho : s.optopt = opt.val) : Shows (.excess opt) GetOpt.unknown s
  | stray {a s} (ho : s.optopt = 0) : Shows (.stray a) GetOpt.unknown s
  | operand {a s} (ha : s.optarg = some a) : Shows (.operand a) ordered s

/-- How the arguments lie between two calls: options `P`, operands `N` passed over,
the arguments `O` of the last option, and those not looked at. -/
structure Arranged (P N O args : List (List WCHAR)) (s : State) : Prop where
  argv : s.argv = P ++ N ++ O ++ args
  optbase : s.optbase = P.length
  optmark : s.optmark = P.length + N.length
  argind : s.argind + 1 = P.length + N.length + O.length
  taken : O ≠ []
  optreset : s.optreset = false
  optind_pos : 1 ≤ s.optind
  optind_ge : P.length ≤ s.optind
  optind_le : s.optind ≤ s.argind + 1
  conventions : s.conventions = 0 ∨ s.conventions = g.established

/-- An arrangement, with what a place of the reading says of the scanner. -/
structure Stands (P N O : List (List WCHAR)) (p : Place WCHAR) (s : State) : Prop extends
    Arranged g P N O p.args s where
  nextchar : s.nextchar = p.letters
  started : p.letters ≠ [] → P ≠ []
  optind_eq : p.args ≠ [] → p.letters = [] → s.optind = s.argind + 1

/-- Inside a call, with the last option in its place in front of the operands. -/
structure Between (P N args : List (List WCHAR)) (s : State) : Prop where
  argv : s.argv = P ++ N ++ args
  optbase : s.optbase = P.length
  argind : s.argind + 1 = P.length + N.length
  started : P ≠ []
  optreset : s.optreset = false
  optind : args ≠ [] → P.length ≤ s.optind ∧ s.optind ≤ s.argind + 1
  conventions : s.conventions = 0 ∨ s.conventions = g.established

end Call

variable {g : Call} {P N O args : List (List WCHAR)} {s : State}

/-- In a run the scanner finds its variables as it left them. -/
theorem adjust_eq (h : g.Arranged P N O args s) : s.adjust = s := by
  have hpos : ¬s.optind < 1 := by have := h.optind_pos; omega
  have hbase : ¬s.optind < s.optbase := by have := h.optind_ge; rw [h.optbase]; omega
  have hle : ¬s.optind > s.argind + 1 := by have := h.optind_le; omega
  have hr : s.optreset = false := h.optreset
  simp only [State.adjust,hr,hpos,hbase,hle]
  simp [← hr]

theorem permute_between {p : Place WCHAR} (h : g.Stands P N O p s) (hp : p.letters = []) :
    g.Between (P ++ O) N p.args s.permute := by
  have hO : 0 < O.length := List.length_pos_of_ne_nil h.taken
  have hargind := h.argind
  have hspan : s.argind - s.optmark + 1 = O.length := by rw [h.optmark]; omega
  have hoptind (hne : p.args ≠ []) :
      (P ++ O).length ≤ s.optind ∧ s.optind ≤ s.argind + 1 := by
    have he := h.optind_eq hne hp
    rw [List.length_append]
    omega
  by_cases hN : s.optmark > s.optbase
  · have hthis : (s.argv.drop s.optmark).take O.length = O := by
      have hdrop : s.argv.drop s.optmark = O ++ p.args := by
        rw [h.argv,h.optmark,← List.length_append,List.append_assoc (P ++ N)]
        exact List.drop_left
      rw [hdrop]
      exact List.take_left
    have hcount : s.optmark - s.optbase = N.length := by rw [h.optmark,h.optbase]; omega
    have hmove : storeFrom s.optbase O (moveRight s.optbase O.length N.length s.argv) =
        P ++ O ++ N ++ p.args := by
      rw [h.optbase,h.argv,moveRight_block,List.append_assoc _ N]
      rw [storeFrom_block P _ O _ (by simp)]
      simp
    have hs : s.permute = { s with
        argv := P ++ O ++ N ++ p.args, optmark := s.optbase - 1,
        optbase := s.optbase + O.length } := by
      simp only [State.permute,hN,if_true,hspan,hthis,hcount,hmove]
    rw [hs]
    refine ⟨rfl,?_,?_,?_,h.optreset,hoptind,h.conventions⟩
    · simp [h.optbase]
    · show s.argind + 1 = (P ++ O).length + N.length
      rw [List.length_append]
      omega
    · simp [h.taken]
  · have hnil : N = [] := by
      rw [h.optmark,h.optbase] at hN
      exact List.length_eq_zero_iff.mp (by omega)
    subst hnil
    have hs : s.permute = { s with optbase := s.argind + 1 } := by
      simp only [State.permute,hN,if_false]
    rw [hs]
    refine ⟨?_,?_,?_,?_,h.optreset,hoptind,h.conventions⟩
    · simpa using h.argv
    · show s.argind + 1 = (P ++ O).length
      simpa using h.argind
    · simpa using h.argind
    · simp [h.taken]

/-- The stop marker too comes to stand in front of the operands. -/
theorem endMarker_argv {w : List WCHAR} (hargv : s.argv = P ++ N ++ w::args)
    (hbase : s.optbase = P.length) (hmark : s.optmark = P.length + N.length) (hP : P ≠ []) :
    s.endMarker.argv = P ++ [w] ++ N ++ args := by
  by_cases hN : s.optmark > s.optbase
  · obtain ⟨P',q,rfl⟩ : ∃ P' q, P = P' ++ [q] :=
      ⟨P.dropLast,P.getLast hP,(List.dropLast_append_getLast hP).symm⟩
    have hthis : s.argv.getD s.optmark [] = w := by
      rw [hargv,hmark,← List.length_append]
      simp
    have hlow : s.optbase - 1 = P'.length := by simp [hbase]
    have hcount : s.optmark - s.optbase + 1 = (q::N).length := by
      rw [hmark,hbase,List.length_cons]
      omega
    have hmove : moveRight P'.length 1 (q::N).length s.argv = P' ++ [q] ++ q::N ++ args := by
      have h := moveRight_block P' (q::N) [w] args
      simp only [List.length_singleton] at h
      rw [hargv]
      simpa using h
    have hset : (P' ++ [q] ++ q::N ++ args).set s.optbase w = P' ++ [q] ++ [w] ++ N ++ args := by
      have hlist : P' ++ [q] ++ q::N ++ args = (P' ++ [q]) ++ q::(N ++ args) := by simp
      rw [hbase,hlist]
      simp
    simp only [State.endMarker,hN,if_true,hthis,hlow,hcount,hmove,hset]
  · have hnil : N = [] := by
      rw [hmark,hbase] at hN
      exact List.length_eq_zero_iff.mp (by omega)
    subst hnil
    simp only [State.endMarker,hN,if_false,hargv]
    simp

theorem endMarker_optind (s : State) : s.endMarker.optind = s.optbase + 1 := by
  simp only [State.endMarker]
  split <;> rfl

/-- The conventions are settled once. -/
theorem conventions_eq {posixlyCorrect : Bool} {flags conventions : ℕ}
    (h : conventions = 0 ∨ conventions = getoptW_conventions posixlyCorrect flags 0) :
    getoptW_conventions posixlyCorrect flags conventions =
      getoptW_conventions posixlyCorrect flags 0 := by
  rcases h with rfl | rfl
  · rfl
  · by_cases hf : flags &&& set_conventions = 0
    · have hne : getoptW_conventions posixlyCorrect flags 0 ≠ 0 := by
        simp only [getoptW_conventions,hf,and_self,if_true]
        split <;> decide
      rw [getoptW_conventions,if_neg (by simp [hne]),if_neg (by simp [hf])]
    · simp [getoptW_conventions,hf]

theorem nameOf_cons_ne {c : WCHAR} (hc : c ≠ arg_assign) (text : List WCHAR) :
    nameOf (c::text) = c::nameOf text ∧ valueOf (c::text) = valueOf text := by
  simp [nameOf,valueOf,hc]

/-- A match is a match of the text up to its value, and sets the value. -/
theorem match_long_eq {name : List WCHAR} (hname : arg_assign ∉ name) (text : List WCHAR) :
    getoptW_match_long text name =
      if name = nameOf text then (.exact_match,valueOf text)
      else if (nameOf text).isPrefixOf name then (.abbreviated_match,valueOf text)
      else (.no_match,none) := by
  fun_induction getoptW_match_long text name with
  | case1 => rfl
  | case2 => rfl
  | case3 text => simp [nameOf,valueOf]
  | case4 c text hc => simp [nameOf,hc]
  | case5 text c name ih =>
    have hc : c ≠ arg_assign := fun he => hname (by simp [he])
    obtain ⟨hn,hv⟩ := nameOf_cons_ne hc text
    rw [ih fun he => hname (by simp [he]),hn,hv]
    simp
  | case6 text d name hd => simp [nameOf,valueOf]
  | case7 c text d name hd hc =>
    rw [(nameOf_cons_ne hc text).1]
    simp [Ne.symm hd,hd]

theorem candidates_cons (opt : LongOption) (longopts : List LongOption) (text : List WCHAR) :
    candidates (opt::longopts) text =
      if (nameOf text).isPrefixOf opt.name then opt :: candidates longopts text
      else candidates longopts text := by
  simp only [candidates,List.filter_cons]

theorem isPrefixOf_self (text : List WCHAR) : text.isPrefixOf text = true := by simp

/-- With one abbreviation found, the next candidate decides. -/
theorem lookupLong_some (text : List WCHAR) (longopts : List LongOption) (opt : LongOption) :
    lookupLong text longopts (some opt) (valueOf text) =
      match candidates longopts text with
      | [] => (.found opt,valueOf text)
      | opt'::_ =>
        (if opt'.name = nameOf text then .found opt' else .ambiguous,valueOf text) := by
  induction longopts with
  | nil => rfl
  | cons opt' longopts ih =>
    rw [lookupLong,match_long_eq opt'.noAssign,candidates_cons]
    by_cases he : opt'.name = nameOf text
    · simp [he]
    by_cases hp : (nameOf text).isPrefixOf opt'.name = true
    · simp [he,hp]
    · simp only [he,hp,if_false]
      exact ih

theorem lookupLong_none (text : List WCHAR) (longopts : List LongOption) :
    lookupLong text longopts none none =
      (resolve longopts text,if candidates longopts text = [] then none else valueOf text) := by
  induction longopts with
  | nil => rfl
  | cons opt longopts ih =>
    rw [lookupLong,match_long_eq opt.noAssign,resolve,candidates_cons]
    by_cases he : opt.name = nameOf text
    · simp only [he,if_true,isPrefixOf_self]
      cases candidates longopts text <;> simp [he]
    by_cases hp : (nameOf text).isPrefixOf opt.name = true
    · simp only [he,hp,if_true,if_false,Option.or_none,lookupLong_some]
      cases candidates longopts text with
      | nil => simp
      | cons opt' rest => simp [he]
    · simp only [he,hp,if_false]
      exact ih

theorem arranged_next (h : g.Arranged P N O args s) : s.argv[s.argind + 1]? = args.head? := by
  have hi : s.argind + 1 = (P ++ N ++ O).length := by
    rw [h.argind]
    simp [Nat.add_assoc]
  rw [h.argv,hi,List.getElem?_append_right le_rfl,Nat.sub_self,List.head?_eq_getElem?]

/-- The option took nothing behind its own argument. -/
theorem stands_stay (h : g.Arranged P N O args s) (hP : P ≠ []) (optopt : ℤ)
    (optarg : Option (List WCHAR)) (cs : List WCHAR) :
    g.Stands P N O ⟨cs,args⟩ { s with
      optopt := optopt, optarg := optarg, nextchar := cs,
      optind := if cs ≠ [] then s.argind else s.argind + 1 } := by
  have hargind := h.argind
  have hO : 0 < O.length := List.length_pos_of_ne_nil h.taken
  have hlen : 0 < P.length := List.length_pos_of_ne_nil hP
  refine ⟨⟨h.argv,h.optbase,h.optmark,h.argind,h.taken,h.optreset,?_,?_,?_,h.conventions⟩,
    rfl,fun _ => hP,?_⟩
  · show 1 ≤ if cs ≠ [] then s.argind else s.argind + 1
    split <;> omega
  · show P.length ≤ if cs ≠ [] then s.argind else s.argind + 1
    split <;> omega
  · show (if cs ≠ [] then s.argind else s.argind + 1) ≤ s.argind + 1
    split <;> omega
  · rintro - rfl
    rfl

/-- The option took the next argument. -/
theorem stands_take {a : List WCHAR} (h : g.Arranged P N O (a::args) s) (optopt : ℤ)
    (optarg : Option (List WCHAR)) :
    g.Stands P N (O ++ [a]) ⟨[],args⟩ { s with
      optopt := optopt, optarg := optarg, nextchar := [], argind := s.argind + 1,
      optind := s.argind + 2 } := by
  have hargind := h.argind
  refine ⟨⟨?_,h.optbase,h.optmark,?_,by simp,h.optreset,?_,?_,?_,h.conventions⟩,
    rfl,by simp,fun _ _ => rfl⟩
  · simpa using h.argv
  · simp only [List.length_append,List.length_singleton]
    omega
  · show 1 ≤ s.argind + 2
    omega
  · show P.length ≤ s.argind + 2
    omega
  · show s.argind + 2 ≤ s.argind + 1 + 1
    omega

/-- A letter of a cluster, read by the code and by the grammar. -/
theorem shortOption_reads {mode : Mode} (hm : mode = .long_only ↔ g.mode = .long_only)
    (c : WCHAR) (cs : List WCHAR) (h : g.Arranged P N O args s) (hP : P ≠ []) :
    g.Shows (g.grammar.readLetter c cs args).event (shortOption g mode c cs s).1
        (shortOption g mode c cs s).2 ∧
      g.Stands P N (O ++ (g.grammar.readLetter c cs args).used)
        (g.grammar.readLetter c cs args).next (shortOption g mode c cs s).2 := by
  have hnext := arranged_next h
  cases hmatch : getoptW_match c g.optstring.chars with
  | none =>
    have hletter : g.grammar.letter c = none := by simp [Call.grammar,Call.letterArity,hmatch]
    by_cases hlong : mode = .long_only
    · have habandons : g.grammar.abandons = true := by simp [Call.grammar,hm.mp hlong]
      simp only [Grammar.readLetter,hletter,habandons,shortOption,hmatch,hlong,if_true,
        List.append_nil]
      exact ⟨.unknown (by simp [hm.mp hlong]) rfl,stands_stay h hP _ _ []⟩
    · have hg : g.mode ≠ .long_only := fun he => hlong (hm.mpr he)
      have habandons : g.grammar.abandons = false := by simp [Call.grammar,hg]
      simp only [Grammar.readLetter,hletter,habandons,shortOption,hmatch,hlong,if_false,
        List.append_nil,Bool.false_eq_true]
      exact ⟨.unknown (by simp [hg]) rfl,stands_stay h hP _ _ cs⟩
  | some optchar =>
    by_cases htakes : optchar[1]? = some takes_argument
    · by_cases hoptional : optchar[2]? = some takes_argument
      · have hletter : g.grammar.letter c = some .optional := by
          simp [Call.grammar,Call.letterArity,hmatch,htakes,hoptional]
        cases cs with
        | cons d cs =>
          simp only [Grammar.readLetter,hletter,shortOption,hmatch,htakes,if_true,ne_eq,
            reduceCtorEq,not_false_eq_true,List.append_nil]
          exact ⟨.letter rfl rfl,stands_stay h hP _ _ []⟩
        | nil =>
          simp only [Grammar.readLetter,hletter,shortOption,hmatch,htakes,hoptional,if_true,ne_eq,
            not_true_eq_false,if_false,List.append_nil]
          exact ⟨.letter rfl rfl,stands_stay h hP _ _ []⟩
      · have hletter : g.grammar.letter c = some .required := by
          simp [Call.grammar,Call.letterArity,hmatch,htakes,hoptional]
        cases cs with
        | cons d cs =>
          simp only [Grammar.readLetter,hletter,shortOption,hmatch,htakes,if_true,ne_eq,
            reduceCtorEq,not_false_eq_true,List.append_nil]
          exact ⟨.letter rfl rfl,stands_stay h hP _ _ []⟩
        | nil =>
          cases args with
          | nil =>
            simp only [List.head?_nil] at hnext
            simp only [Grammar.readLetter,hletter,shortOption,hmatch,htakes,hoptional,if_true,ne_eq,
              not_true_eq_false,if_false,List.append_nil,hnext]
            exact ⟨.missingLetter rfl,⟨h.argv,h.optbase,h.optmark,h.argind,h.taken,h.optreset,
              h.optind_pos,h.optind_ge,h.optind_le,h.conventions⟩,rfl,by simp,by simp⟩
          | cons a args =>
            simp only [List.head?_cons] at hnext
            simp only [Grammar.readLetter,hletter,shortOption,hmatch,htakes,hoptional,if_true,ne_eq,
              not_true_eq_false,if_false,hnext]
            exact ⟨.letter rfl rfl,stands_take h _ _⟩
    · have hletter : g.grammar.letter c = some .none := by
        simp [Call.grammar,Call.letterArity,hmatch,htakes]
      simp only [Grammar.readLetter,hletter,shortOption,hmatch,htakes,if_false,List.append_nil]
      exact ⟨.letter rfl rfl,stands_stay h hP _ _ cs⟩

/-- A long option, resolved by the code and read by the grammar. -/
theorem resolved_reads (opt : LongOption) (value : Option (List WCHAR))
    (h : g.Arranged P N O args s) (hP : P ≠ []) :
    g.Shows (g.grammar.readLong opt value args).event
        (getoptW_resolved g opt { s with optarg := value, nextchar := [] }).1
        (getoptW_resolved g opt { s with optarg := value, nextchar := [] }).2 ∧
      g.Stands P N (O ++ (g.grammar.readLong opt value args).used)
        (g.grammar.readLong opt value args).next
        (getoptW_resolved g opt { s with optarg := value, nextchar := [] }).2 := by
  have hnext := arranged_next h
  cases hhas : opt.has_arg with
  | no_argument =>
    have harity : g.grammar.arity opt = .none := by simp [Call.grammar,LongOption.arity,hhas]
    cases value with
    | none =>
      simp only [Grammar.readLong,harity,getoptW_resolved,hhas,List.append_nil]
      exact ⟨.long rfl,stands_stay h hP _ none []⟩
    | some value =>
      simp only [Grammar.readLong,harity,getoptW_resolved,hhas,List.append_nil]
      exact ⟨.excess rfl,stands_stay h hP _ _ []⟩
  | optional_argument =>
    have harity : g.grammar.arity opt = .optional := by simp [Call.grammar,LongOption.arity,hhas]
    simp only [Grammar.readLong,harity,getoptW_resolved,hhas,List.append_nil]
    exact ⟨.long rfl,stands_stay h hP _ _ []⟩
  | required_argument =>
    have harity : g.grammar.arity opt = .required := by simp [Call.grammar,LongOption.arity,hhas]
    cases value with
    | some value =>
      simp only [Grammar.readLong,harity,getoptW_resolved,hhas,List.append_nil]
      exact ⟨.long rfl,stands_stay h hP _ _ []⟩
    | none =>
      cases args with
      | nil =>
        simp only [List.head?_nil] at hnext
        simp only [Grammar.readLong,harity,getoptW_resolved,hhas,List.append_nil,hnext]
        exact ⟨.missingLong rfl,stands_stay h hP _ _ []⟩
      | cons a args =>
        simp only [List.head?_cons] at hnext
        simp only [Grammar.readLong,harity,getoptW_resolved,hhas,hnext]
        exact ⟨.long rfl,stands_take h _ _⟩

namespace Call

variable (g) in
/-- What a turn does with an argument that is a given word. -/
def TurnOf (s : State) : Word WCHAR LongOption → Turn → Prop
  | .operand, t => ∃ nextchar, t = .operand { s with optmark := s.argind, nextchar := nextchar }
  | .stop, t => ∃ nextchar,
      t = .ret all_done (State.endMarker { s with optmark := s.argind, nextchar := nextchar })
  | .cluster c letters, t => ∃ mode optarg, (mode = .long_only ↔ g.mode = .long_only) ∧
      t = .again mode { s with optmark := s.argind, optarg := optarg, nextchar := c::letters }
  | .long opt value, t =>
      let r := getoptW_resolved g opt
        { s with optmark := s.argind, optarg := value, nextchar := [] }
      t = .ret r.1 r.2
  | .stray, t => ∃ optarg, t = .ret GetOpt.unknown { s with
      optmark := s.argind, optarg := optarg, optopt := 0, nextchar := [], optind := s.argind + 1 }

end Call

theorem resolve_found {longopts : List LongOption} {text : List WCHAR} {opt : LongOption}
    (h : resolve longopts text = .found opt) : candidates longopts text ≠ [] := by
  intro he
  simp [resolve,he] at h

theorem resolve_mem {longopts : List LongOption} {text : List WCHAR} {opt : LongOption}
    (h : resolve longopts text = .found opt) : opt ∈ longopts := by
  have hsub : ∀ o ∈ candidates longopts text, o ∈ longopts := fun o ho => (List.mem_filter.mp ho).1
  rw [resolve] at h
  split at h
  · simp at h
  · next o hc =>
    obtain rfl := Lookup.found.inj h
    exact hsub o (by simp [hc])
  · next o o' rest hc =>
    split at h
    · obtain rfl := Lookup.found.inj h
      exact hsub o (by simp [hc])
    · split at h
      · obtain rfl := Lookup.found.inj h
        exact hsub o' (by simp [hc])
      · simp at h

theorem longWord_long {mode : Mode} {text : List WCHAR} {opt : LongOption}
    {value : Option (List WCHAR)} (h : g.longWord mode text = .long opt value) :
    resolve g.longopts text = .found opt := by
  unfold Call.longWord at h
  split at h
  · next o hr =>
    obtain ⟨rfl,-⟩ := Word.long.inj h
    exact hr
  · split at h
    · simp at h
    · split at h <;> simp at h

/-- Only the options of the table are reported. -/
theorem isLong_mem {opt : LongOption} (h : g.grammar.IsLong opt) : opt ∈ g.longopts := by
  obtain ⟨a,value,ha⟩ := h
  have hword : g.word a = .long opt value := ha
  match a with
  | [] => simp [Call.word] at hword
  | [_] => simp [Call.word] at hword
  | c::c'::text =>
    simp only [Call.word] at hword
    split at hword
    · split at hword
      · split at hword
        · simp at hword
        · split at hword
          · simp at hword
          · exact resolve_mem (longWord_long hword)
      · split at hword
        · exact resolve_mem (longWord_long hword)
        · simp at hword
    · simp at hword

theorem longTurn_word {mode : Mode} (hm : mode = .long ∨ mode = g.mode) (text : List WCHAR)
    (s : State) :
    g.TurnOf s (g.longWord mode text)
      (longTurn g mode { s with optmark := s.argind, nextchar := text }) := by
  simp only [longTurn,lookupLong_none,Call.longWord]
  cases hr : resolve g.longopts text with
  | found opt => simp [Call.TurnOf,resolve_found hr]
  | _ =>
    cases text with
    | nil => exact ⟨_,by simp [getoptW_verify]; rfl⟩
    | cons c cs =>
      have hopt : g.optstring.chars ≠ [] := by
        intro he
        have h := g.optstring.hasLetter
        simp [he,letters] at h
      have hverify : getoptW_verify (c::cs) g.optstring.chars =
          verifyLetters g.optstring.chars (c::cs) := by
        simp [getoptW_verify,hopt]
      rw [hverify]
      by_cases hc : mode = .long_only ∧ verifyLetters g.optstring.chars (c::cs) = true
      · have hmode : mode = g.mode := hm.resolve_left (by simp [hc.1])
        simp only [hc,and_self,if_true]
        exact ⟨.long_only,_,by rw [← hmode,hc.1],rfl⟩
      · simp only [hc,if_false]
        exact ⟨_,rfl⟩

/-- A turn of the loop goes by what the argument is. -/
theorem turn_word (a : List WCHAR) (s : State) : g.TurnOf s (g.word a) (turn g g.mode a s) := by
  match a with
  | [] => exact ⟨[],rfl⟩
  | [c] =>
    by_cases hc : c = switchar
    · exact ⟨[],by simp [turn,hc]⟩
    · exact ⟨[c],by simp [turn,hc]⟩
  | c::c'::text =>
    by_cases hc : c = switchar
    · by_cases hc' : c' = switchar
      · by_cases ht : text = []
        · simp only [turn,Call.word,hc,hc',ht,if_true]
          exact ⟨_,rfl⟩
        · by_cases hg : g.mode = .standard
          · simp only [turn,Call.word,hc,hc',ht,hg,if_true,if_false]
            exact ⟨_,_,by simp [hg],rfl⟩
          · simp only [turn,Call.word,hc,hc',ht,hg,if_true,if_false]
            exact longTurn_word (.inl rfl) text s
      · by_cases hg : g.mode = .long_only
        · simp only [turn,Call.word,hc,hc',hg,if_true,if_false]
          exact longTurn_word (.inr hg.symm) (c'::text) s
        · simp only [turn,Call.word,hc,hc',hg,if_true,if_false]
          exact ⟨_,_,by simp [hg],rfl⟩
    · simp only [turn,Call.word,hc,if_false]
      exact ⟨_,rfl⟩

namespace Call

variable (g) in
/-- The scanner has taken the arguments `U` and passed over `N`, and stands at `p`. -/
def At (U N : List (List WCHAR)) (p : Place WCHAR) (s : State) : Prop :=
  ∃ P O, U = P ++ O ∧ g.Stands P N O p s

variable (g) in
/-- The outcome of a call is the move of the reading. -/
inductive Moves (U N : List (List WCHAR)) : Move WCHAR LongOption → ℤ → State → Prop
  | step {skipped st r s} (hshows : g.Shows st.event r s)
    (hat : g.At (U ++ st.used) (N ++ skipped) st.next s) : Moves U N (.step skipped st) r s
  | done {skipped used rest stopped s} (hargv : s.argv = U ++ used ++ (N ++ skipped ++ rest))
    (hoptind : s.optind = (U ++ used).length) : Moves U N (.done skipped used rest stopped) all_done s

theorem Moves.first {U N : List (List WCHAR)} {st : Step WCHAR LongOption} {r : ℤ}
    (hshows : g.Shows st.event r s) (hat : g.At (U ++ st.used) N st.next s) :
    g.Moves U N (.step [] st) r s :=
  .step hshows (by rwa [List.append_nil])

theorem Moves.skip {U : List (List WCHAR)} {a : List WCHAR} {m : Move WCHAR LongOption} {r : ℤ}
    (h : g.Moves U (N ++ [a]) m r s) : g.Moves U N (m.skip a) r s := by
  cases h with
  | step hshows hat => exact .step hshows (by simpa using hat)
  | done hargv hoptind => exact .done (by simpa using hargv) hoptind

end Call

/-- The call of itself handles the letter the scanner stands at. -/
theorem again_eq {mode : Mode} {c : WCHAR} {cs : List WCHAR} (fuel : ℕ)
    (h : g.Arranged P N O args s) (hn : s.nextchar = c::cs) :
    getoptW_parse g (fuel+1) mode s = some (shortOption g mode c cs s) := by
  simp only [getoptW_parse,adjust_eq h,hn]

theorem between_arranged {a : List WCHAR} (h : g.Between P N (a::args) s) (optopt : ℤ)
    (optarg : Option (List WCHAR)) (nextchar : List WCHAR) :
    g.Arranged P N [a] args { s with
      argind := s.argind + 1, optmark := s.argind + 1, optopt := optopt, optarg := optarg,
      nextchar := nextchar } := by
  obtain ⟨hge,hle⟩ := h.optind (by simp)
  have hP : 0 < P.length := List.length_pos_of_ne_nil h.started
  have hargind := h.argind
  refine ⟨?_,h.optbase,hargind,?_,by simp,h.optreset,?_,hge,?_,h.conventions⟩
  · simpa using h.argv
  · simp only [List.length_singleton]
    omega
  · show 1 ≤ s.optind
    omega
  · show s.optind ≤ s.argind + 1 + 1
    omega

theorem between_skip {a : List WCHAR} (h : g.Between P N (a::args) s) (nextchar : List WCHAR)
    {conventions : ℕ} (hc : conventions = g.established) :
    g.Between P (N ++ [a]) args { s with
      argind := s.argind + 1, optmark := s.argind + 1, nextchar := nextchar,
      conventions := conventions } := by
  obtain ⟨hge,hle⟩ := h.optind (by simp)
  have hargind := h.argind
  refine ⟨?_,h.optbase,?_,h.started,h.optreset,fun _ => ⟨hge,?_⟩,.inr hc⟩
  · simpa using h.argv
  · simp only [List.length_append,List.length_singleton]
    omega
  · show s.optind ≤ s.argind + 1 + 1
    omega

/-- The loop over the arguments makes the move of the reading. -/
theorem mainLoop_moves (fuel : ℕ) (h : g.Between P N args s) :
    ∃ r s', mainLoop g g.mode (getoptW_parse g (fuel+1)) args.length s = some (r,s') ∧
      g.Moves P N (g.grammar.readArgs args) r s' := by
  induction args generalizing N s with
  | nil =>
    refine ⟨all_done,_,rfl,.done ?_ ?_⟩
    · simpa using h.argv
    · simpa using h.optbase
  | cons a args ih =>
    have hget : s.argv.getD (s.argind + 1) [] = a := by
      rw [h.argv,h.argind,← List.length_append]
      simp
    have hword := turn_word (g := g) a { s with argind := s.argind + 1 }
    have hw : g.grammar.word a = g.word a := rfl
    simp only [List.length_cons,mainLoop,hget,Grammar.readArgs,hw]
    cases hk : g.word a with
    | operand =>
      rw [hk] at hword
      obtain ⟨nextchar,ht⟩ := hword
      simp only [ht]
      have hconv : getoptW_conventions g.posixlyCorrect (g.optstring.chars.headD 0).toNat
          s.conventions = g.established := conventions_eq h.conventions
      by_cases horder : g.optstring.chars.head? = some switchar
      · have ho : g.grammar.order = .inOrder := by simp [Call.grammar,Call.order,horder]
        simp only [horder,if_true,ho,hget]
        have harr := between_arranged h s.optopt s.optarg s.nextchar
        exact ⟨_,_,rfl,.first (.operand rfl)
          ⟨P,[a],rfl,stands_stay harr h.started s.optopt (some a) []⟩⟩
      · simp only [horder,if_false,hconv]
        by_cases hposix : g.established &&& posixly_correct = 0
        · have ho : g.grammar.order = .permute := by
            simp [Call.grammar,Call.order,horder,hposix]
          have hbetween := between_skip h nextchar (rfl : g.established = g.established)
          obtain ⟨r,s',hloop,hmoves⟩ := ih hbetween
          refine ⟨r,s',?_,by simpa only [ho] using hmoves.skip⟩
          rw [if_neg (by simp [hposix])]
          exact hloop
        · have ho : g.grammar.order = .posix := by
            simp [Call.grammar,Call.order,horder,hposix]
          refine ⟨all_done,_,if_pos hposix,?_⟩
          simp only [ho]
          exact .done (by simpa using h.argv) (by simpa using h.optbase)
    | stop =>
      rw [hk] at hword
      obtain ⟨nextchar,ht⟩ := hword
      simp only [ht]
      refine ⟨all_done,_,rfl,.done ?_ ?_⟩
      · have hargv : (State.endMarker { s with
            argind := s.argind + 1, optmark := s.argind + 1, nextchar := nextchar }).argv =
              P ++ [a] ++ N ++ args :=
          endMarker_argv h.argv h.optbase h.argind h.started
        simpa using hargv
      · rw [endMarker_optind]
        simp [h.optbase]
    | cluster c cs =>
      rw [hk] at hword
      obtain ⟨mode,optarg,hm,ht⟩ := hword
      simp only [ht]
      have harr := between_arranged h s.optopt optarg (c::cs)
      rw [again_eq fuel harr rfl]
      obtain ⟨hshows,hstands⟩ := shortOption_reads hm c cs harr h.started
      exact ⟨_,_,rfl,.first hshows ⟨P,_,rfl,hstands⟩⟩
    | long opt value =>
      rw [hk] at hword
      simp only [Call.TurnOf] at hword
      simp only [hword]
      have harr := between_arranged h s.optopt s.optarg s.nextchar
      obtain ⟨hshows,hstands⟩ := resolved_reads opt value harr h.started
      exact ⟨_,_,rfl,.first hshows ⟨P,_,rfl,hstands⟩⟩
    | stray =>
      rw [hk] at hword
      obtain ⟨optarg,ht⟩ := hword
      simp only [ht]
      have harr := between_arranged h s.optopt s.optarg s.nextchar
      exact ⟨_,_,rfl,.first (.stray rfl)
        ⟨P,[a],rfl,stands_stay harr h.started 0 optarg []⟩⟩

/-- A call makes the move of the reading, and two levels of it are enough. -/
theorem parse_moves {U N : List (List WCHAR)} {p : Place WCHAR} (h : g.At U N p s) (fuel : ℕ) :
    ∃ r s', getoptW_parse g (fuel+2) g.mode s = some (r,s') ∧
      g.Moves U N (g.grammar.read p) r s' := by
  obtain ⟨P,O,rfl,h⟩ := h
  obtain ⟨letters,args⟩ := p
  cases letters with
  | cons c cs =>
    obtain ⟨hshows,hstands⟩ := shortOption_reads
      (Iff.rfl : g.mode = .long_only ↔ g.mode = .long_only) c cs h.toArranged (h.started (by simp))
    refine ⟨_,_,again_eq (fuel+1) h.toArranged h.nextchar,.first hshows ⟨P,_,?_,hstands⟩⟩
    exact List.append_assoc P O _
  | nil =>
    have hbetween := permute_between h rfl
    have hlen : s.permute.argv.length - (s.permute.argind + 1) = args.length := by
      rw [hbetween.argv,hbetween.argind]
      simp only [List.length_append]
      omega
    obtain ⟨r,s',hloop,hmoves⟩ := mainLoop_moves fuel hbetween
    refine ⟨r,s',?_,hmoves⟩
    have hnext : s.nextchar = [] := h.nextchar
    rw [getoptW_parse]
    simp only [adjust_eq h.toArranged,hnext,hlen]
    exact hloop

theorem missing_arg_ne_done (optstring : List WCHAR) : getoptW_missing_arg optstring ≠ all_done := by
  simp only [getoptW_missing_arg]
  split <;> split <;> decide

theorem shows_ne_done {e : Event WCHAR LongOption} {r : ℤ} (h : g.Shows e r s) : r ≠ all_done := by
  cases h with
  | @letter c => exact (show (-1 : ℤ) < c.toNat by omega).ne'
  | @long opt => exact opt.notDone
  | missingLetter => exact missing_arg_ne_done _
  | missingLong => exact missing_arg_ne_done _
  | unknown => decide
  | excess => decide
  | stray => decide
  | operand => decide

section
variable {σ τ ρ : Type}

/-- The client keeps `R` between its state and what `react` makes of the events. -/
def Follows (g : Call) (handle : σ → ℤ → State → Except ρ σ)
    (react : τ → Event WCHAR LongOption → Except ρ τ) (R : σ → τ → Prop) : Prop :=
  ∀ o t e r s, R o t → e.Of g.grammar → g.Shows e r s →
    match react t e with
    | .ok t' => ∃ o', handle o r s = .ok o' ∧ R o' t'
    | .error out => handle o r s = .error out

/-- To follow the events it is enough to answer each as `react` does. -/
theorem follows_of_eq {handle : σ → ℤ → State → Except ρ σ}
    {react : σ → Event WCHAR LongOption → Except ρ σ}
    (h : ∀ o e r s, e.Of g.grammar → g.Shows e r s → handle o r s = react o e) :
    Follows g handle react Eq := by
  rintro o _ e r s rfl hof hshows
  rw [h o e r s hof hshows]
  cases react o e with
  | error out => rfl
  | ok o' => exact ⟨o',rfl,rfl⟩

variable {handle : σ → ℤ → State → Except ρ σ} {react : τ → Event WCHAR LongOption → Except ρ τ}
  {R : σ → τ → Prop} {U : List (List WCHAR)} {p : Place WCHAR}

/-- A client that accepts every event sees all of them, and then the operands. -/
theorem optionLoop_reads (hf : Follows g handle react R) {o : σ} {t t' : τ} (hR : R o t)
    (h : g.At U N p s) (hall : (g.grammar.scan p).events.foldlM react t = .ok t') (fuel : ℕ) :
    ∃ o' s', optionLoop g handle ((g.grammar.scan p).events.length + 1 + fuel) o s =
        some (.ok o',s') ∧ R o' t' ∧
      s'.argv = U ++ (g.grammar.scan p).used ++ (N ++ (g.grammar.scan p).operands) ∧
      s'.optind = (U ++ (g.grammar.scan p).used).length := by
  induction p using Grammar.scan_induction (G := g.grammar) generalizing o t s U N with
  | done p skipped used rest stopped hread =>
    obtain ⟨r,s',hparse,hmoves⟩ := parse_moves h (0 + fuel)
    rw [hread] at hmoves
    rw [Grammar.scan_done hread] at hall ⊢
    obtain rfl : t = t' := Except.ok.inj hall
    cases hmoves with
    | done hargv hoptind =>
      refine ⟨o,s',?_,hR,by simpa using hargv,hoptind⟩
      rw [List.length_nil,Nat.zero_add,Nat.add_comm 1 fuel,optionLoop]
      rw [Nat.zero_add] at hparse
      simp [hparse]
  | step p skipped st hread ih =>
    rw [Grammar.scan_step hread] at hall ⊢
    simp only [Reading.after,List.length_cons,List.foldlM_cons] at hall ⊢
    obtain ⟨r,s',hparse,hmoves⟩ := parse_moves h ((g.grammar.scan st.next).events.length + 1 + fuel)
    rw [hread] at hmoves
    cases hmoves with
    | step hshows hat =>
      have hstep := hf o t st.event r s' hR (Grammar.read_of hread) hshows
      cases hreact : react t st.event with
      | error out => simp [hreact,bind,Except.bind] at hall
      | ok t₁ =>
        rw [hreact] at hall hstep
        obtain ⟨o₁,hhandle,hR₁⟩ := hstep
        obtain ⟨o',s'',hloop,hR',hargv,hoptind⟩ := ih hR₁ hat hall
        refine ⟨o',s'',?_,hR',by simpa using hargv,by simpa using hoptind⟩
        have hfuel : (g.grammar.scan st.next).events.length + 1 + 1 + fuel =
            (g.grammar.scan st.next).events.length + 1 + fuel + 1 := by omega
        rw [hfuel,optionLoop]
        simp only [hparse,shows_ne_done hshows,if_false,hhandle]
        exact hloop

/-- A client that stops at an event stands behind that event. -/
theorem optionLoop_stops (hf : Follows g handle react R) {o : σ} {t t₁ : τ} (hR : R o t)
    (h : g.At U N p s) {seen : List (Event WCHAR LongOption)} {e : Event WCHAR LongOption}
    {used : List (List WCHAR)} {q : Place WCHAR} (hpath : g.grammar.Path p (seen ++ [e]) used q)
    (hseen : seen.foldlM react t = .ok t₁) {out : ρ} (hstop : react t₁ e = .error out)
    (fuel : ℕ) :
    ∃ r s' N', optionLoop g handle (seen.length + 1 + fuel) o s = some (.error out,s') ∧
      g.Shows e r s' ∧ g.At (U ++ used) N' q s' := by
  induction seen generalizing o t s U N p used with
  | nil =>
    obtain rfl : t = t₁ := Except.ok.inj hseen
    obtain ⟨r,s',hparse,hmoves⟩ := parse_moves h fuel
    cases hpath with
    | cons hread hp =>
      cases hp
      rw [hread] at hmoves
      cases hmoves with
      | step hshows hat =>
        have hhandle := hf o t _ r s' hR (Grammar.read_of hread) hshows
        rw [hstop] at hhandle
        refine ⟨r,s',_,?_,hshows,by rwa [List.append_nil]⟩
        rw [List.length_nil,Nat.zero_add,Nat.add_comm 1 fuel,optionLoop]
        simp only [hparse,shows_ne_done hshows,if_false,hhandle]
  | cons e₁ seen ih =>
    obtain ⟨r,s',hparse,hmoves⟩ := parse_moves h (seen.length + 1 + fuel)
    cases hpath with
    | cons hread hp =>
      rw [hread] at hmoves
      cases hmoves with
      | step hshows hat =>
        have hstep := hf o t _ r s' hR (Grammar.read_of hread) hshows
        rw [List.foldlM_cons] at hseen
        split at hstep
        · next t₂ hreact =>
          rw [hreact] at hseen
          obtain ⟨o₂,hhandle,hR₂⟩ := hstep
          obtain ⟨r',s'',N',hloop,hshows',hat'⟩ := ih hR₂ hat hp hseen
          refine ⟨r',s'',N',?_,hshows',by rwa [← List.append_assoc]⟩
          have hfuel : seen.length + 1 + 1 + fuel = seen.length + 1 + fuel + 1 := by omega
          rw [List.length_cons,hfuel,optionLoop]
          simp only [hparse,shows_ne_done hshows,if_false,hhandle]
          exact hloop
        · next out' hreact => simp [hreact,bind,Except.bind] at hseen

/-- Where the events stop a client, one of them does, and those before it do not. -/
theorem foldlM_error {react : τ → Event WCHAR LongOption → Except ρ τ} {t : τ} {out : ρ}
    {events : List (Event WCHAR LongOption)} (h : events.foldlM react t = .error out) :
    ∃ seen e rest t₁, events = seen ++ e::rest ∧ seen.foldlM react t = .ok t₁ ∧
      react t₁ e = .error out := by
  induction events generalizing t with
  | nil => simp [pure,Except.pure] at h
  | cons e events ih =>
    rw [List.foldlM_cons] at h
    cases he : react t e with
    | error out' =>
      rw [he] at h
      obtain rfl : out' = out := Except.error.inj h
      exact ⟨[],e,events,t,rfl,rfl,he⟩
    | ok t₂ =>
      rw [he] at h
      obtain ⟨seen,e',rest,t₁,rfl,hseen,hstop⟩ := ih h
      refine ⟨e::seen,e',rest,t₁,rfl,?_,hstop⟩
      rw [List.foldlM_cons,he]
      exact hseen

/-- What the loop of a client comes to is what it makes of the events, in their order. -/
theorem optionLoop_eq {handle : τ → ℤ → State → Except ρ τ} (hf : Follows g handle react Eq)
    (h : g.At U N p s) (t : τ) (fuel : ℕ) :
    ∃ s', optionLoop g handle ((g.grammar.scan p).events.length + 1 + fuel) t s =
      some ((g.grammar.scan p).events.foldlM react t,s') := by
  cases hall : (g.grammar.scan p).events.foldlM react t with
  | ok t' =>
    obtain ⟨o,s',hloop,rfl,-,-⟩ := optionLoop_reads hf rfl h hall fuel
    exact ⟨s',hloop⟩
  | error out =>
    obtain ⟨seen,e,rest,t₁,hevents,hseen,hstop⟩ := foldlM_error hall
    have hsplit : (g.grammar.scan p).events = (seen ++ [e]) ++ rest := by simpa using hevents
    obtain ⟨used,q,hpath,-⟩ := Grammar.path_of_events hsplit
    obtain ⟨r,s',N',hloop,-,-⟩ := optionLoop_stops hf rfl h hpath hseen hstop
      (rest.length + 1 + fuel)
    refine ⟨s',?_⟩
    have hfuel : (g.grammar.scan p).events.length + 1 + fuel =
        seen.length + 1 + (rest.length + 1 + fuel) := by
      rw [hevents,List.length_append,List.length_cons]
      omega
    rw [hfuel,hloop]

end

/-- The scanner before its first call. -/
theorem at_start (g : Call) (program : List WCHAR) (args : List (List WCHAR)) :
    g.At [program] [] ⟨[],args⟩ { argv := program::args } :=
  ⟨[],[program],rfl,⟨rfl,rfl,rfl,rfl,by simp,rfl,le_rfl,by simp,le_rfl,.inl rfl⟩,
    rfl,by simp,fun _ _ => rfl⟩

/-- Calls of the scanner, one after the other, with what each returns and leaves. -/
def callsOf (g : Call) (fuel : ℕ) (s : State) :=
  optionLoop g (ρ := Empty) (fun calls r s => .ok (calls ++ [(r,s)])) fuel
    ([] : List (ℤ × State)) s

/-- Call by call the scanner returns the events of the reading, and with the end
`optind` stands at the operands: `argv` has been sorted into options and operands,
each in their order, and nothing is lost or doubled. -/
theorem getopt_reads (g : Call) (program : List WCHAR) (args : List (List WCHAR)) (fuel : ℕ) :
    let reading := g.grammar.scan ⟨[],args⟩
    ∃ calls s, callsOf g (reading.events.length + 1 + fuel) { argv := program::args } =
        some (.ok calls,s) ∧
      List.Forall₂ (fun e call => g.Shows e call.1 call.2) reading.events calls ∧
      s.argv = program :: (reading.used ++ reading.operands) ∧
      s.argv.drop s.optind = reading.operands ∧
      s.argv.Perm (program::args) ∧
      reading.used.Sublist args ∧ reading.operands.Sublist args := by
  intro reading
  let react (seen : List (Event WCHAR LongOption)) (e : Event WCHAR LongOption) :
      Except Empty (List (Event WCHAR LongOption)) := .ok (seen ++ [e])
  have hfold (seen events : List (Event WCHAR LongOption)) :
      events.foldlM react seen = .ok (seen ++ events) := by
    induction events generalizing seen with
    | nil => simp [pure,Except.pure]
    | cons e events ih =>
      rw [List.foldlM_cons]
      show events.foldlM react (seen ++ [e]) = _
      rw [ih]
      simp
  have hfollows : Follows g (fun calls r s => .ok (calls ++ [(r,s)])) react
      fun calls seen => List.Forall₂ (fun e call => g.Shows e call.1 call.2) seen calls :=
    fun calls seen e r s hR _ hshows =>
      ⟨calls ++ [(r,s)],rfl,List.rel_append hR (.cons hshows .nil)⟩
  obtain ⟨calls,s,hloop,hshows,hargv,hoptind⟩ := optionLoop_reads hfollows List.Forall₂.nil
    (at_start g program args) (hfold [] _) fuel
  have hlist : s.argv = program :: (reading.used ++ reading.operands) := by simpa using hargv
  obtain ⟨hused,hoperands⟩ := Grammar.scan_sublist (G := g.grammar) ⟨[],args⟩
  refine ⟨calls,s,hloop,hshows,hlist,?_,?_,hused,hoperands⟩
  · rw [hargv,hoptind]
    exact List.drop_left
  · rw [hlist]
    exact (Grammar.scan_perm (G := g.grammar) ⟨[],args⟩).cons program

end GetOpt
end DrMingw
