import DrMingw.CNumbers

/-! Formats of the wide `printf` family: the pieces of a format, the text it makes of its
arguments, and what the types of the arguments alone tell of that text. -/
namespace DrMingw
namespace Printf

open Numerals CNumbers

def BLANK : WCHAR := 0x20
def PERCENT : WCHAR := 0x25

/-- What a directive makes of its argument. `%i` is `%d`, `%hs` is `%S` and `%ls` is `%s`. -/
inductive Conversion
  | x | X | u | d | c | s | S | p
  deriving DecidableEq

structure Directive where
  left : Bool := false
  zeros : Bool := false
  width : ℕ := 0
  /-- The length modifier, by its first letter. -/
  size : Option WCHAR := none
  deriving DecidableEq

/-- `I64`. -/
def Directive.is64 (d : Directive) : Bool := d.size = some 0x49

inductive Piece
  | literal (c : WCHAR)
  | directive (d : Directive) (conversion : Conversion)
  deriving DecidableEq

inductive Arg
  | word (n : UInt16)
  | dword (n : DWORD)
  | dword64 (n : DWORD64)
  | pointer (p : DWORD64)
  | char (c : WCHAR)
  | wideString (s : List WCHAR)
  | narrowString (s : List CHAR)

/-- The C runtime: its word size, and its conversion of narrow strings. -/
structure Runtime where
  win64 : Bool
  toWide : List CHAR → List WCHAR
  length_le : ∀ s, (toWide s).length ≤ s.length
  noNul : ∀ s, 0 ∉ s → 0 ∉ toWide s
  ascii : ∀ s, (∀ c ∈ s, c < 128) → toWide s = s.map (·.toUInt16)

/-- The letter that ends a directive. -/
def Directive.ends (d : Directive) (c : WCHAR) : Option Conversion :=
  if c = 0x78 then some .x
  else if c = 0x58 then some .X
  else if c = 0x75 then some .u
  else if c = 0x64 ∨ c = 0x69 then some .d
  else if c = 0x63 then some .c
  else if c = 0x73 then some (if d.size = some 0x68 then .S else .s)
  else if c = 0x53 then some .S
  else if c = 0x70 then some .p
  else none

/-- A flag, a digit of the width, or a length modifier; the digits of `I64` are passed
over. -/
def Directive.goesOn (d : Directive) (c : WCHAR) : Option Directive :=
  if c = 0x49 ∨ c = 0x6C ∨ c = 0x68 then some { d with size := some c }
  else if 48 ≤ c ∧ c ≤ 57 then
    if d.size.isSome then some d
    else if c = ZERO ∧ d.width = 0 then some { d with zeros := true }
    else some { d with width := 10*d.width + (c.toNat - 48) }
  else if c = MINUS then some { d with left := true }
  else none

/-- The pieces of a format, of which the directive `reading` has begun; none if it is not
well formed. -/
def pieces : Option Directive → List WCHAR → Option (List Piece)
  | none,[] => some []
  | some _,[] => none
  | none,c::cs =>
    if c = PERCENT then pieces (some {}) cs else (pieces none cs).map (.literal c::·)
  | some d,c::cs =>
    match d.ends c with
    | some conversion => (pieces none cs).map (.directive d conversion::·)
    | none =>
      match d.goesOn c with
      | some d' => pieces (some d') cs
      | none => none

/-- The text of an argument before padding; none if the directive is for another type. -/
def convert (rt : Runtime) (is64 : Bool) : Conversion → Arg → Option (List WCHAR)
  | .x,.dword n => if is64 then none else some (numeral wideDigits 16 n.toNat)
  | .x,.dword64 n => if is64 then some (numeral wideDigits 16 n.toNat) else none
  | .X,.dword n => if is64 then none else some (numeral upperDigits 16 n.toNat)
  | .X,.dword64 n => if is64 then some (numeral upperDigits 16 n.toNat) else none
  | .u,.word n => if is64 then none else some (numeral wideDigits 10 n.toNat)
  | .u,.dword n => if is64 then none else some (numeral wideDigits 10 n.toNat)
  | .d,.dword n => if is64 then none else some (printLong n.toInt32.toInt)
  | .p,.pointer p => some (padded upperDigits 16 (if rt.win64 then 16 else 8) p.toNat)
  | .c,.char c => some [c]
  | .s,.wideString s => some s
  | .S,.narrowString s => some (rt.toWide s)
  | _,_ => none

/-- Zeros are for the unsigned conversions: a sign would have to come first. -/
def Directive.pad (d : Directive) (s : List WCHAR) : List WCHAR :=
  if d.left then s ++ List.replicate (d.width - s.length) BLANK
  else List.replicate (d.width - s.length) (if d.zeros then ZERO else BLANK) ++ s

def fill (rt : Runtime) : List Piece → List Arg → Option (List WCHAR)
  | [],_ => some []
  | .literal c::ps,args => (fill rt ps args).map (c::·)
  | .directive _ _::_,[] => none
  | .directive d conversion::ps,a::args => do
    let s ← convert rt d.is64 conversion a
    (fill rt ps args).map (d.pad s ++ ·)

/-- A call of the `printf` family. -/
structure PrintfCall where
  format : List WCHAR
  args : List Arg

/-- The text of a call; none if the arguments are not what the format is for. -/
def PrintfCall.text (rt : Runtime) (call : PrintfCall) : Option (List WCHAR) :=
  (pieces none call.format).bind fun ps => fill rt ps call.args

/-- A type of arguments, with the greatest length of a string. -/
inductive Kind
  | word | dword | dword64 | pointer | char
  | wideString (n : ℕ)
  | narrowString (n : ℕ)

def Arg.Has : Arg → Kind → Prop
  | .word _,.word | .dword _,.dword | .dword64 _,.dword64 | .pointer _,.pointer => True
  | .char c,.char => 0 < c ∧ c < 128
  | .wideString s,.wideString n => s.length ≤ n ∧ 0 ∉ s
  | .narrowString s,.narrowString n => s.length ≤ n ∧ 0 ∉ s
  | _,_ => False

/-- The most characters a conversion makes of an argument of its type. -/
def Conversion.limit (is64 : Bool) : Conversion → Kind → Option ℕ
  | .x,.dword | .X,.dword => if is64 then none else some 8
  | .x,.dword64 | .X,.dword64 => if is64 then some 16 else none
  | .u,.word => if is64 then none else some 5
  | .u,.dword => if is64 then none else some 10
  | .d,.dword => if is64 then none else some 11
  | .p,.pointer => some 16
  | .c,.char => some 1
  | .s,.wideString n => some n
  | .S,.narrowString n => some n
  | _,_ => none

/-- The most characters a format makes of arguments of these types; none if they do not
agree with it, one by one. -/
def limit : List Piece → List Kind → Option ℕ
  | [],[] => some 0
  | .literal c::ps,ks => if 0 < c ∧ c < 128 then (limit ps ks).map (1 + ·) else none
  | .directive d conversion::ps,k::ks =>
    (conversion.limit d.is64 k).bind fun n => (limit ps ks).map (max n d.width + ·)
  | _,_ => none

/-- The piece is never empty, and ASCII. -/
def Piece.isPlain : Piece → Bool
  | .literal _ => true
  | .directive _ conversion => conversion ≠ .s && conversion ≠ .S

def Ascii (s : List WCHAR) : Prop := ∀ c ∈ s, 0 < c ∧ c < 128

variable {conversion : Conversion} {is64 : Bool} {k : Kind}
  {a : Arg} {ps : List Piece} {ks : List Kind} {args : List Arg} {s : List WCHAR} {n : ℕ}

theorem ascii_noNul (h : Ascii s) : 0 ∉ s := fun hz => absurd (h 0 hz).1 (by decide)

theorem digit_ascii {d : ℕ} (hd : d < 16) :
    (0 < wideDigits.digit d ∧ wideDigits.digit d < 128) ∧
      0 < upperDigits.digit d ∧ upperDigits.digit d < 128 := by
  revert d
  decide

theorem numeral_ascii {D : Digits WCHAR} (hD : ∀ d < 16, 0 < D.digit d ∧ D.digit d < 128) {b : ℕ}
    (hb : 1 < b) (hb' : b ≤ 16) (n : ℕ) : Ascii (numeral D b n) := by
  intro c hc
  obtain ⟨d,hd,rfl⟩ := mem_numeral hb hc
  exact hD d (by omega)

theorem padded_ascii {D : Digits WCHAR} (hD : ∀ d < 16, 0 < D.digit d ∧ D.digit d < 128)
    (width n : ℕ) : Ascii (padded D 16 width n) := by
  induction width generalizing n with
  | zero => exact fun c hc => absurd hc List.not_mem_nil
  | succ width ih =>
    intro c hc
    rcases List.mem_append.mp hc with hc | hc
    · exact ih (n/16) c hc
    · obtain rfl := List.mem_singleton.mp hc
      exact hD _ (Nat.mod_lt _ (by decide))

theorem printLong_ascii (v : ℤ) : Ascii (printLong v) := by
  intro c hc
  rcases mem_printLong hc with rfl | ⟨hlow,hhigh⟩
  · decide
  · rw [UInt16.le_iff_toNat_le] at hlow hhigh
    rw [UInt16.lt_iff_toNat_lt,UInt16.lt_iff_toNat_lt]
    exact ⟨lt_of_lt_of_le (by decide) hlow,lt_of_le_of_lt hhigh (by decide)⟩

theorem printLong_length (v : Int32) : (printLong v.toInt).length ≤ 11 := by
  have hlow := v.le_toInt
  have hhigh := v.toInt_lt
  have hnat : v.toInt.natAbs < 10^10 := by omega
  have hlen := numeral_length_le (D := wideDigits) (b := 10) (by decide) hnat (by decide)
  rw [printLong]
  split
  · rw [List.length_cons]
    omega
  · omega

/-- What is known of the text of a conversion. -/
structure Converted (plain : Bool) (n : ℕ) (s : List WCHAR) : Prop where
  length_le : s.length ≤ n
  noNul : 0 ∉ s
  plain : plain = true → s ≠ [] ∧ Ascii s

theorem Converted.of_ascii {plain : Bool} (hlen : s.length ≤ n) (hne : s ≠ []) (h : Ascii s) :
    Converted plain n s := ⟨hlen,ascii_noNul h,fun _ => ⟨hne,h⟩⟩

theorem converted_numeral {D : Digits WCHAR} (hD : ∀ d < 16, 0 < D.digit d ∧ D.digit d < 128)
    {plain : Bool} {b m : ℕ} (hb : 1 < b) (hb' : b ≤ 16) (hn : 0 < n) (hm : m < b^n) :
    Converted plain n (numeral D b m) :=
  .of_ascii (numeral_length_le hb hm hn) (numeral_ne_nil m) (numeral_ascii hD hb hb' m)

/-- A conversion of an argument of its type keeps to the limit. -/
theorem convert_of_limit (rt : Runtime) (d : Directive) (h : conversion.limit is64 k = some n) (ha : a.Has k) :
    ∃ s, convert rt is64 conversion a = some s ∧
      Converted (Piece.directive d conversion).isPlain n s := by
  have hwide : ∀ d < 16, 0 < wideDigits.digit d ∧ wideDigits.digit d < 128 :=
    fun d hd => (digit_ascii hd).1
  have hupper : ∀ d < 16, 0 < upperDigits.digit d ∧ upperDigits.digit d < 128 :=
    fun d hd => (digit_ascii hd).2
  revert h
  fun_cases Conversion.limit is64 conversion k
  all_goals intro h
  all_goals try contradiction
  all_goals cases a
  all_goals try exact ha.elim
  all_goals obtain rfl := Option.some.inj h
  case case2.dword h64 m =>
    exact ⟨_,if_neg h64,converted_numeral hwide (by decide) (by decide) (by decide)
      m.toNat_lt⟩
  case case4.dword h64 m =>
    exact ⟨_,if_neg h64,converted_numeral hupper (by decide) (by decide) (by decide)
      m.toNat_lt⟩
  case case5.dword64 h64 m =>
    exact ⟨_,if_pos h64,converted_numeral hwide (by decide) (by decide) (by decide)
      m.toNat_lt⟩
  case case7.dword64 h64 m =>
    exact ⟨_,if_pos h64,converted_numeral hupper (by decide) (by decide) (by decide)
      m.toNat_lt⟩
  case case10.word h64 m =>
    exact ⟨_,if_neg h64,converted_numeral hwide (by decide) (by decide) (by decide)
      (m.toNat_lt.trans (by decide))⟩
  case case12.dword h64 m =>
    exact ⟨_,if_neg h64,converted_numeral hwide (by decide) (by decide) (by decide)
      (m.toNat_lt.trans (by decide))⟩
  case case14.dword h64 m =>
    refine ⟨_,if_neg h64,.of_ascii (printLong_length _) ?_ (printLong_ascii _)⟩
    rw [printLong]
    split
    · exact List.cons_ne_nil _ _
    · exact numeral_ne_nil _
  case case15.pointer m =>
    have hne : padded upperDigits 16 (if rt.win64 then 16 else 8) m.toNat ≠ [] := by
      intro hnil
      have hlen := congrArg List.length hnil
      rw [padded_length] at hlen
      split at hlen <;> simp at hlen
    refine ⟨_,rfl,.of_ascii ?_ hne (padded_ascii hupper _ _)⟩
    rw [padded_length]
    split <;> decide
  case case16.char c =>
    exact ⟨[c],rfl,.of_ascii le_rfl (List.cons_ne_nil _ _) (by simpa [Ascii,Arg.Has] using ha)⟩
  case case17.wideString s => exact ⟨s,rfl,ha.1,ha.2,by simp [Piece.isPlain]⟩
  case case18.narrowString s =>
    exact ⟨rt.toWide s,rfl,(rt.length_le s).trans ha.1,rt.noNul s ha.2,by simp [Piece.isPlain]⟩

/-- Padding adds blanks or zeros up to the width. -/
theorem pad_eq (d : Directive) (s : List WCHAR) :
    ∃ front back, d.pad s = front ++ s ++ back ∧ Ascii front ∧ Ascii back ∧
      (d.pad s).length = max s.length d.width := by
  have hblank : Ascii (List.replicate (d.width - s.length) BLANK) := by
    intro c hc
    obtain rfl := List.eq_of_mem_replicate hc
    decide
  have hfill : Ascii (List.replicate (d.width - s.length) (if d.zeros then ZERO else BLANK)) := by
    intro c hc
    obtain rfl := List.eq_of_mem_replicate hc
    cases d.zeros <;> decide
  have hnil : Ascii [] := fun c hc => absurd hc List.not_mem_nil
  by_cases hleft : d.left = true
  · refine ⟨[],_,?_,hnil,hblank,?_⟩
    · simp [Directive.pad,hleft]
    · simp [Directive.pad,hleft]
      omega
  · refine ⟨_,[],?_,hfill,hnil,?_⟩
    · simp [Directive.pad,hleft]
    · simp [Directive.pad,hleft]
      omega

theorem Converted.pad {plain : Bool} (h : Converted plain n s) (d : Directive) :
    Converted plain (max n d.width) (d.pad s) := by
  obtain ⟨front,back,hpad,hfront,hback,hlen⟩ := pad_eq d s
  refine ⟨?_,?_,fun hp => ⟨?_,?_⟩⟩
  · rw [hlen]
    exact max_le_max_right _ h.length_le
  · rw [hpad]
    simp [ascii_noNul hfront,h.noNul,ascii_noNul hback]
  · rw [hpad]
    simp [(h.plain hp).1]
  · rw [hpad]
    intro c hc
    rcases List.mem_append.mp hc with hc | hc
    · rcases List.mem_append.mp hc with hc | hc
      · exact hfront c hc
      · exact (h.plain hp).2 c hc
    · exact hback c hc

/-- The text of a piece among those of a format. -/
theorem fill_cons (rt : Runtime) {p : Piece} {n : ℕ} (h : limit (p::ps) ks = some n) (hargs : List.Forall₂ Arg.Has args ks) :
    ∃ s args' ks' m m', Converted p.isPlain m s ∧ limit ps ks' = some m' ∧ n = m + m' ∧
      List.Forall₂ Arg.Has args' ks' ∧
      ∀ rest, fill rt ps args' = some rest → fill rt (p::ps) args = some (s ++ rest) := by
  cases p with
  | literal c =>
    rw [limit] at h
    by_cases hc : 0 < c ∧ c < 128
    · rw [if_pos hc] at h
      obtain ⟨m',hm',rfl⟩ := Option.map_eq_some_iff.mp h
      refine ⟨[c],args,ks,1,m',.of_ascii le_rfl (List.cons_ne_nil _ _) ?_,hm',rfl,hargs,?_⟩
      · simpa [Ascii] using hc
      · intro rest hrest
        simp [fill,hrest]
    · rw [if_neg hc] at h
      cases h
  | directive d conversion =>
    cases hargs with
    | nil => simp [limit] at h
    | @cons a k args ks ha hargs =>
      rw [limit] at h
      obtain ⟨m,hm,h⟩ := Option.bind_eq_some_iff.mp h
      obtain ⟨m',hm',rfl⟩ := Option.map_eq_some_iff.mp h
      obtain ⟨s,hs,hconverted⟩ := convert_of_limit rt d hm ha
      refine ⟨d.pad s,args,ks,_,m',hconverted.pad d,hm',rfl,hargs,?_⟩
      intro rest hrest
      simp [fill,hs,hrest]

/-- What is known of the text of a format whose pieces have a limit. -/
structure Filled (ps : List Piece) (n : ℕ) (t : List WCHAR) : Prop where
  length_le : t.length ≤ n
  noNul : 0 ∉ t
  head : ∀ p ∈ ps.head?, p.isPlain = true → ∃ c ∈ t.head?, c < 128
  last : ∀ p ∈ ps.getLast?, p.isPlain = true → ∃ c ∈ t.getLast?, c < 128

theorem fill_of_limit (rt : Runtime) (h : limit ps ks = some n) (hargs : List.Forall₂ Arg.Has args ks) :
    ∃ t, fill rt ps args = some t ∧ Filled ps n t := by
  induction ps generalizing ks args n with
  | nil => exact ⟨[],by simp [fill],⟨Nat.zero_le n,by simp,by simp,by simp⟩⟩
  | cons p ps ih =>
    obtain ⟨s,args',ks',m,m',hs,hlimit,rfl,hargs',hfill⟩ := fill_cons rt h hargs
    obtain ⟨t,ht,hfilled⟩ := ih hlimit hargs'
    refine ⟨s ++ t,hfill t ht,?_,?_,?_,?_⟩
    · rw [List.length_append]
      exact Nat.add_le_add hs.length_le hfilled.length_le
    · simp [hs.noNul,hfilled.noNul]
    · intro q hq hplain
      obtain rfl : p = q := by simpa using hq
      obtain ⟨hne,hascii⟩ := hs.plain hplain
      obtain ⟨c,rest,rfl⟩ := List.exists_cons_of_ne_nil hne
      exact ⟨c,by simp,(hascii c List.mem_cons_self).2⟩
    · intro q hq hplain
      cases ps with
      | nil =>
        obtain rfl : p = q := by simpa using hq
        obtain ⟨hne,hascii⟩ := hs.plain hplain
        obtain rfl : t = [] := by simpa [fill] using ht.symm
        rw [List.append_nil]
        exact ⟨s.getLast hne,by simp [List.getLast?_eq_some_getLast hne],
          (hascii _ (List.getLast_mem hne)).2⟩
      | cons p' ps =>
        obtain ⟨c,hc,hlt⟩ := hfilled.last q (by simpa using hq) hplain
        refine ⟨c,?_,hlt⟩
        rw [Option.mem_def] at hc ⊢
        rw [List.getLast?_append,hc]
        rfl

end Printf
end DrMingw
