import DrMingw.Strings
import DrMingw.OptionScan

/-! `getoptW_parse`, the scanner behind the command lines of the programs. Its state
between calls is in static variables, and it permutes `argv` as it goes. Diagnostics
are left out. -/
namespace DrMingw
namespace GetOpt

open OptionScan

def switchar : WCHAR := 0x2D
def pluschar : WCHAR := 0x2B
def takes_argument : WCHAR := 0x3A
def arg_assign : WCHAR := 0x3D
def unknown : ℤ := 0x3F
def ordered : ℤ := 1
def all_done : ℤ := -1

inductive Mode
  | standard | long | long_only
  deriving DecidableEq

inductive HasArg
  | no_argument | required_argument | optional_argument
  deriving DecidableEq

/-- `struct option` with a null `flag`. -/
structure LongOption where
  name : List WCHAR
  has_arg : HasArg
  val : ℤ
  /-- The separator of a value is no part of a name. -/
  noAssign : arg_assign ∉ name
  /-- What an option returns does not end the scan. -/
  notDone : val ≠ all_done

/-- The option letters of an `optstring`, behind its markers. -/
def letters (opt_string : List WCHAR) : List WCHAR :=
  let opt_string :=
    if opt_string.head? = some pluschar ∨ opt_string.head? = some switchar then opt_string.tail
    else opt_string
  if opt_string.head? = some takes_argument then opt_string.tail else opt_string

structure OptString where
  chars : List WCHAR
  /-- `getoptW_match` looks at the first letter before it looks for the end. -/
  hasLetter : letters chars ≠ []

/-- The argument list and the static variables of the scanner. -/
structure State where
  argv : List (List WCHAR)
  optind : ℕ := 1
  optopt : ℤ := unknown
  optarg : Option (List WCHAR) := none
  optreset : Bool := false
  argind : ℕ := 0
  optbase : ℕ := 0
  /-- Empty when it is null, too. -/
  nextchar : List WCHAR := []
  optmark : ℕ := 0
  conventions : ℕ := 0

/-- What every call is given, and whether `POSIXLY_CORRECT` is set. -/
structure Call where
  mode : Mode
  optstring : OptString
  longopts : List LongOption := []
  posixlyCorrect : Bool := false

def getoptW_missing_arg (optstring : List WCHAR) : ℤ :=
  let optstring :=
    if optstring.head? = some pluschar ∨ optstring.head? = some switchar then optstring.tail
    else optstring
  if optstring.head? = some takes_argument then takes_argument.toNat else unknown

def set_conventions : ℕ := 0x1000
def posixly_correct : ℕ := 0x0010

def getoptW_conventions (posixlyCorrect : Bool) (flags conventions : ℕ) : ℕ :=
  if conventions = 0 ∧ flags &&& set_conventions = 0 then
    if flags = pluschar.toNat ∨ posixlyCorrect then set_conventions ||| posixly_correct
    else set_conventions
  else if flags &&& set_conventions ≠ 0 then conventions ||| flags
  else conventions

/-- The option string from the letter on. -/
def getoptW_match (lookup : WCHAR) (opt_string : List WCHAR) : Option (List WCHAR) :=
  match (letters opt_string).dropWhile (· ≠ lookup) with
  | [] => none
  | optchar => some optchar

inductive LongMatch
  | no_match | abbreviated_match | exact_match
  deriving DecidableEq

/-- The match of an argument with the name of a long option, and the `optarg` it sets. -/
def getoptW_match_long : List WCHAR → List WCHAR → LongMatch × Option (List WCHAR)
  | [], [] => (.exact_match,none)
  | [], _::_ => (.abbreviated_match,none)
  | matchchar::nextchar, [] =>
    if matchchar = arg_assign then (.exact_match,some nextchar) else (.no_match,none)
  | matchchar::nextchar, c::optname =>
    if matchchar = c then getoptW_match_long nextchar optname
    else if matchchar = arg_assign then (.abbreviated_match,some nextchar)
    else (.no_match,none)

/-- Every letter is one of the options, up to one that takes the rest as its argument. -/
def verifyLetters (optstring : List WCHAR) : List WCHAR → Bool
  | [] => true
  | c::nextchar =>
    match getoptW_match c optstring with
    | none => false
    | some test => if test[1]? = some takes_argument then true else verifyLetters optstring nextchar

def getoptW_verify (nextchar optstring : List WCHAR) : Bool :=
  !nextchar.isEmpty && !optstring.isEmpty && verifyLetters optstring nextchar

namespace State

/-- What a call does first: start over, or follow an `optind` that was moved. -/
def adjust (s : State) : State :=
  let optreset := s.optreset || s.optind < 1
  if optreset ∨ s.optind < s.optbase then
    let optind := if optreset then 1 else s.optind
    { s with optreset := false, optind := optind, optmark := optind - 1, optbase := optind - 1,
             argind := optind - 1, nextchar := [] }
  else if s.optind > s.argind + 1 then
    { s with optreset := false, argind := s.optind - 1, nextchar := [] }
  else { s with optreset := false }

end State

/-- `count` elements from index `low` on move `span` places to the right, last first. -/
def moveRight (low span : ℕ) : ℕ → List (List WCHAR) → List (List WCHAR)
  | 0, arglist => arglist
  | n+1, arglist =>
    moveRight low span n (arglist.set (low+n+span) (arglist.getD (low+n) []))

/-- Store elements from an index on. -/
def storeFrom : ℕ → List (List WCHAR) → List (List WCHAR) → List (List WCHAR)
  | _, [], arglist => arglist
  | index, a::this_arg, arglist => storeFrom (index+1) this_arg (arglist.set index a)

theorem moveRight_block (P N Z R : List (List WCHAR)) :
    moveRight P.length Z.length N.length (P ++ N ++ Z ++ R) =
      P ++ (N ++ Z).take Z.length ++ N ++ R := by
  induction N using List.reverseRecOn generalizing Z R with
  | nil => simp [moveRight]
  | append_singleton N x ih =>
    -- The element at the upper end changes places with the last of those behind it.
    obtain ⟨Y,z,hY⟩ : ∃ Y z, x::Z = Y ++ [z] :=
      ⟨(x::Z).dropLast,(x::Z).getLast (by simp),(List.dropLast_append_getLast _).symm⟩
    have hlen : Y.length = Z.length := by
      have h := congrArg List.length hY
      simpa using h.symm
    have hlist : P ++ (N ++ [x]) ++ Z ++ R = P ++ N ++ Y ++ z::R := by
      calc P ++ (N ++ [x]) ++ Z ++ R = P ++ N ++ (x::Z) ++ R := by simp
        _ = P ++ N ++ Y ++ z::R := by simp [hY]
    have hget : (P ++ N ++ Y ++ z::R).getD (P.length + N.length) [] = x := by
      have h : P ++ N ++ Y ++ z::R = (P ++ N) ++ x::(Z ++ R) := by
        rw [← hlist]
        simp
      rw [h,← List.length_append]
      simp
    have hset : (P ++ N ++ Y ++ z::R).set (P.length + N.length + Z.length) x =
        P ++ N ++ Y ++ x::R := by
      have hi : P.length + N.length + Z.length = (P ++ N ++ Y).length := by
        simp [hlen,Nat.add_assoc]
      rw [hi]
      simp
    have htake : (N ++ [x] ++ Z).take Y.length = (N ++ Y).take Y.length := by
      have h : N ++ [x] ++ Z = N ++ Y ++ [z] := by simp [hY]
      rw [h]
      exact List.take_append_of_le_length (by simp)
    rw [List.length_append,List.length_singleton,moveRight,hlist,hget,hset,← hlen,ih Y (x::R),htake]
    simp

theorem storeFrom_block (P Z X R : List (List WCHAR)) (h : Z.length = X.length) :
    storeFrom P.length X (P ++ Z ++ R) = P ++ X ++ R := by
  induction X generalizing P Z with
  | nil =>
    obtain rfl := List.length_eq_zero_iff.mp h
    rfl
  | cons x X ih =>
    obtain ⟨z,Z,rfl⟩ := List.exists_cons_of_length_eq_add_one h
    have hset : (P ++ z::Z ++ R).set P.length x = (P ++ [x]) ++ Z ++ R := by simp
    have hlen : P.length + 1 = (P ++ [x]).length := by simp
    rw [storeFrom,hset,hlen,ih (P ++ [x]) Z (by simpa using h)]
    simp

namespace State

/-- The arguments of the last option go in front of the operands passed over before it. -/
def permute (s : State) : State :=
  if s.optmark > s.optbase then
    let optspan := s.argind - s.optmark + 1
    let this_arg := (s.argv.drop s.optmark).take optspan
    let arglist := moveRight s.optbase optspan (s.optmark - s.optbase) s.argv
    { s with argv := storeFrom s.optbase this_arg arglist, optmark := s.optbase - 1,
             optbase := s.optbase + optspan }
  else { s with optbase := s.argind + 1 }

/-- At the end marker, which goes in front of the operands passed over, too. -/
def endMarker (s : State) : State :=
  let s :=
    if s.optmark > s.optbase then
      let this_arg := s.argv.getD s.optmark []
      let arglist := moveRight (s.optbase - 1) 1 (s.optmark - s.optbase + 1) s.argv
      { s with argv := arglist.set s.optbase this_arg, optmark := s.optbase - 1 }
    else s
  { s with optbase := s.optbase + 1, optind := s.optbase + 1 }

end State

variable (g : Call)

/-- The short option `c`, with `nextchar` behind it in its cluster. -/
def shortOption (mode : Mode) (c : WCHAR) (nextchar : List WCHAR) (s : State) : ℤ × State :=
  let s := { s with optopt := c.toNat, nextchar := nextchar }
  match getoptW_match c g.optstring.chars with
  | some optchar =>
    if optchar[1]? = some takes_argument then
      if nextchar ≠ [] then
        (s.optopt,{ s with optarg := some nextchar, optind := s.argind + 1, nextchar := [] })
      else if optchar[2]? = some takes_argument then
        (s.optopt,{ s with optarg := none, optind := s.argind + 1, nextchar := [] })
      else
        match s.argv[s.argind + 1]? with
        | some arg =>
          (s.optopt,{ s with optarg := some arg, argind := s.argind + 1,
                             optind := s.argind + 2, nextchar := [] })
        | none => (getoptW_missing_arg g.optstring.chars,{ s with optarg := some [] })
    else
      (s.optopt,{ s with optarg := none,
                         optind := if nextchar ≠ [] then s.argind else s.argind + 1 })
  | none =>
    if mode = .long_only then
      (unknown,{ s with nextchar := [], optopt := 0, optind := s.argind + 1 })
    else (unknown,{ s with optind := if nextchar ≠ [] then s.argind else s.argind + 1 })

/-- A long option has been made out. -/
def getoptW_resolved (opt : LongOption) (s : State) : ℤ × State :=
  let s := { s with optind := s.argind + 1 }
  match s.optarg, opt.has_arg with
  | some _, .no_argument => (unknown,{ s with optopt := opt.val })
  | none, .required_argument =>
    match s.argv[s.optind]? with
    | some arg =>
      (opt.val,{ s with optarg := some arg, argind := s.optind, optind := s.optind + 1 })
    | none => (getoptW_missing_arg g.optstring.chars,{ s with optopt := opt.val })
  | _, _ => (opt.val,s)

inductive Lookup
  | found (opt : LongOption)
  | ambiguous
  | unmatched

/-- The scan of the long options: the first exact match, or the only abbreviation, or
ambiguity at the second one. With it, the `optarg` the matches have set. -/
def lookupLong (nextchar : List WCHAR) :
    List LongOption → Option LongOption → Option (List WCHAR) → Lookup × Option (List WCHAR)
  | [], some matched, optarg => (.found matched,optarg)
  | [], none, optarg => (.unmatched,optarg)
  | opt::longopts, matched, optarg =>
    match getoptW_match_long nextchar opt.name with
    | (.exact_match,set) => (.found opt,set.or optarg)
    | (.abbreviated_match,set) =>
      match matched with
      | some _ => (.ambiguous,set.or optarg)
      | none => lookupLong nextchar longopts (some opt) (set.or optarg)
    | (.no_match,_) => lookupLong nextchar longopts matched optarg

/-- What a turn of the main loop comes to; `again` is the call of itself. -/
inductive Turn
  | ret (r : ℤ) (s : State)
  | again (mode : Mode) (s : State)
  | operand (s : State)

/-- A long option, whatever introduced it. -/
def longTurn (mode : Mode) (s : State) : Turn :=
  match lookupLong s.nextchar g.longopts none none with
  | (.found opt,optarg) =>
    let r := getoptW_resolved g opt { s with optarg := optarg, nextchar := [] }
    .ret r.1 r.2
  | (_,optarg) =>
    let s := { s with optarg := optarg }
    if mode = .long_only ∧ getoptW_verify s.nextchar g.optstring.chars then .again mode s
    else .ret unknown { s with optopt := 0, nextchar := [], optind := s.argind + 1 }

/-- The argument at `argind`. -/
def turn (mode : Mode) (arg : List WCHAR) (s : State) : Turn :=
  let s := { s with optmark := s.argind, nextchar := arg }
  match arg with
  | [] => .operand s
  | c::nextchar =>
    if c = switchar then
      match nextchar with
      | [] => .operand { s with nextchar := [] }
      | c'::refchar =>
        let s := { s with nextchar := c'::refchar }
        if c' = switchar then
          if refchar = [] then .ret all_done s.endMarker
          else if mode = .standard then .again mode s
          else longTurn g .long { s with nextchar := refchar }
        else if mode = .long_only then longTurn g mode s
        else .again .standard s
    else .operand s

/-- The loop over the arguments behind `argind`, of which there are `n`. -/
def mainLoop (mode : Mode) (again : Mode → State → Option (ℤ × State)) :
    ℕ → State → Option (ℤ × State)
  | 0, s => some (all_done,{ s with argind := s.argind + 1, optind := s.optbase })
  | n+1, s =>
    let s := { s with argind := s.argind + 1 }
    match turn g mode (s.argv.getD s.argind []) s with
    | .ret r s => some (r,s)
    | .again mode s => again mode s
    | .operand s =>
      if g.optstring.chars.head? = some switchar then
        some (ordered,{ s with nextchar := [], optind := s.argind + 1,
                               optarg := some (s.argv.getD s.argind []) })
      else
        let flags := (g.optstring.chars.headD 0).toNat
        let s := { s with conventions := getoptW_conventions g.posixlyCorrect flags s.conventions }
        if s.conventions &&& posixly_correct ≠ 0 then some (all_done,{ s with optind := s.optbase })
        else mainLoop mode again n s

/-- One call. It calls itself for the short options of an argument. -/
def getoptW_parse : ℕ → Mode → State → Option (ℤ × State)
  | 0, _, _ => none
  | fuel+1, mode, s =>
    let s := s.adjust
    match s.nextchar with
    | c::nextchar => some (shortOption g mode c nextchar s)
    | [] =>
      let s := s.permute
      mainLoop g mode (getoptW_parse fuel) (s.argv.length - (s.argind + 1)) s

/-- The loop of a program over its options, until they end or it has seen enough. -/
def optionLoop {σ ρ : Type} (handle : σ → ℤ → State → Except ρ σ) :
    ℕ → σ → State → Option (Except ρ σ × State)
  | 0, _, _ => none
  | fuel+1, o, s =>
    match getoptW_parse g (fuel+2) g.mode s with
    | none => none
    | some (r,s) =>
      if r = all_done then some (.ok o,s)
      else
        match handle o r s with
        | .error out => some (.error out,s)
        | .ok o => optionLoop handle fuel o s

end GetOpt
end DrMingw
