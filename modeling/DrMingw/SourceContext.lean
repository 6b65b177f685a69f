import DrMingw.Win32

/-! `dumpSourceCode`: the lines of a source file around a given one, as the report shows
them below a frame. -/
namespace DrMingw
namespace SourceContext

/-- The bytes of a file as a stream opened with `L"r"` delivers them: CR LF as LF, and
nothing from a Ctrl-Z on. -/
def textMode : List CHAR → List CHAR
  | [] => []
  | 13::10::cs => 10::textMode cs
  | c::cs => if c = 0x1A then [] else c::textMode cs

/-- A stream: what is left of its text, and the end-of-file mark. -/
structure FILE where
  rest : List CHAR
  eof : Bool := false

/-- The calls of `lprintf`: the formats `L">%5i: "` or `L"%6i: "`, `L"%c"`, and `L"\n"`. -/
inductive Printed
  | number (marked : Bool) (i : ℤ)
  | char (c : CHAR)
  | newline
  deriving DecidableEq

/-- The locale is the one a C program starts with. -/
def isprint (c : CHAR) : Bool := 0x20 ≤ c && c ≤ 0x7E

def dwContext : DWORD := 2

/-- The inner loops: the characters up to the newline. Only a read that finds nothing more
sets the mark. -/
def readLine : List CHAR → List CHAR × FILE
  | [] => ([],⟨[],true⟩)
  | c::cs => if c = 10 then ([],⟨cs,false⟩) else
    let (line,fp) := readLine cs
    (c::line,fp)

def printLine (dwLineNumber i : DWORD) (line : List CHAR) : List Printed :=
  .number (i = dwLineNumber) i.toInt32.toInt::(line.filter isprint).map .char ++ [.newline]

/-- The sums wrap, also the signed one. -/
def dumpLines (dwLineNumber : DWORD) : ℕ → FILE → DWORD → Option (List Printed)
  | 0, _, _ => none
  | fuel+1, fp, i =>
    if fp.eof then some []
    else if i + 1 ≤ dwLineNumber + dwContext then
      let (line,next) := readLine fp.rest
      let printed := if dwLineNumber.toInt32 - dwContext.toInt32 ≤ (i + 1).toInt32 then
        printLine dwLineNumber (i + 1) line else []
      (dumpLines dwLineNumber fuel next (i + 1)).map (printed ++ ·)
    else some []

/-- `file` is none if it cannot be opened. -/
def dumpSourceCode (file : Option (List CHAR)) (dwLineNumber : DWORD) (fuel : ℕ) :
    Option (Bool × List Printed) :=
  match file with
  | none => some (false,[])
  | some content =>
    (dumpLines dwLineNumber fuel ⟨textMode content,false⟩ 0).map fun printed => (true,printed)

/-- The lines of a text: a newline at its end begins no further one. -/
def fileLines : List CHAR → List (List CHAR)
  | [] => []
  | c::cs => if c = 10 then []::fileLines cs else
    match fileLines cs with
    | [] => [[c]]
    | line::lines => (c::line)::lines

/-- Line `k` as it should appear around line `n`. -/
def contextLine (n : ℕ) (line : List CHAR × ℕ) : List Printed :=
  .number (line.2 = n) line.2::(line.1.filter isprint).map .char ++ [.newline]

/-- Of the lines, numbered from `k` on, those with a wanted number. -/
def selected (n : ℕ) (wanted : ℕ → Bool) (lines : List (List CHAR)) (k : ℕ) : List Printed :=
  ((lines.zipIdx k).filter fun line => wanted line.2).flatMap (contextLine n)

/-- The lines from two before line `n` to two behind it, those that exist. -/
def sourceContext (text : List CHAR) (n : ℕ) : List Printed :=
  selected n (fun k => n ≤ k + 2 ∧ k ≤ n + 2) (fileLines text) 1

/-- Nothing stands behind the last newline. -/
def EndsLine (text : List CHAR) : Prop := ∀ c ∈ text.getLast?, c = 10

instance (text : List CHAR) : Decidable (EndsLine text) :=
  inferInstanceAs (Decidable (∀ c ∈ text.getLast?, c = 10))

/-- The lines as the loop reads them, the last one up to the end of the file. -/
def readLines (text : List CHAR) : List (List CHAR) :=
  fileLines text ++ if EndsLine text then [[]] else []

/-- The loop over the lines that are left, `i` of them read. -/
def dumpReadLines (dwLineNumber i : DWORD) : List (List CHAR) → List Printed
  | [] => []
  | line::lines =>
    if i + 1 ≤ dwLineNumber + dwContext then
      (if dwLineNumber.toInt32 - dwContext.toInt32 ≤ (i + 1).toInt32 then
        printLine dwLineNumber (i + 1) line else []) ++ dumpReadLines dwLineNumber (i + 1) lines
    else []

/-- The numbers that the context of line `n` needs are right, and no empty line behind the
last newline is in it. -/
def ContextExact (text : List CHAR) (n : ℕ) : Prop :=
  if n = 2^32 - 2 then (fileLines text).length < 2^32 - 4
  else n < 2^31 + 2 ∧ ((fileLines text).length < 2^31 ∨ n + 2 < 2^31) ∧
    ¬(EndsLine text ∧ n ≤ (fileLines text).length + 3 ∧ (fileLines text).length < n + 2 ∧
      (fileLines text).length + 1 < 2^31)

variable {text line : List CHAR} {fuel : ℕ} {n i : DWORD}

theorem readLines_nil : readLines [] = [[]] := by
  have hend : EndsLine [] := fun c hc => absurd hc (Option.not_mem_none c)
  rw [readLines,if_pos hend]
  rfl

theorem endsLine_cons {c : CHAR} (h : text ≠ []) : EndsLine (c::text) ↔ EndsLine text := by
  rw [EndsLine,EndsLine,List.getLast?_cons_of_ne_nil h]

theorem fileLines_ne_nil {c : CHAR} : fileLines (c::text) ≠ [] := by
  rw [fileLines]
  split_ifs
  · exact List.cons_ne_nil _ _
  · cases fileLines text <;> exact List.cons_ne_nil _ _

theorem fileLines_cons {c : CHAR} (hc : c ≠ 10) {lines : List (List CHAR)}
    (h : fileLines text = line::lines) : fileLines (c::text) = (c::line)::lines := by
  rw [fileLines,if_neg hc,h]

theorem readLines_newline (text : List CHAR) : readLines (10::text) = []::readLines text := by
  cases text with
  | nil =>
    have hend : EndsLine [10] := fun c hc => (Option.some.inj hc).symm
    rw [readLines_nil,readLines,if_pos hend]
    rfl
  | cons c text => simp only [readLines,fileLines,if_pos,endsLine_cons (List.cons_ne_nil c text),
      List.cons_append]

/-- A character in front of a text joins its first line. -/
theorem readLines_cons {c : CHAR} (hc : c ≠ 10) {lines : List (List CHAR)}
    (h : readLines text = line::lines) : readLines (c::text) = (c::line)::lines := by
  cases text with
  | nil =>
    have hend : ¬EndsLine [c] := fun hl => hc (hl c rfl)
    obtain ⟨rfl,rfl⟩ := List.cons.inj (h.symm.trans readLines_nil)
    rw [readLines,if_neg hend,fileLines,if_neg hc]
    rfl
  | cons d text =>
    rw [readLines] at h
    obtain ⟨first,rest,hlines⟩ := List.exists_cons_of_ne_nil (fileLines_ne_nil (c:=d))
    rw [hlines] at h
    obtain ⟨rfl,rfl⟩ := List.cons.inj h
    simp only [readLines,fileLines_cons hc hlines,endsLine_cons (List.cons_ne_nil d text)]
    rfl

/-- Reading takes the first of the lines, and meets the end of the file with the last. -/
theorem readLine_eq (text : List CHAR) : ∃ line,
    readLine text = (line,⟨[],true⟩) ∧ readLines text = [line] ∨
    ∃ rest, readLine text = (line,⟨rest,false⟩) ∧ readLines text = line::readLines rest ∧
      rest.length < text.length := by
  induction text with
  | nil => exact ⟨[],.inl ⟨rfl,readLines_nil⟩⟩
  | cons c text ih =>
    by_cases hc : c = 10
    · subst hc
      exact ⟨[],.inr ⟨text,rfl,readLines_newline text,Nat.lt_succ_self _⟩⟩
    · obtain ⟨line,⟨hread,hlines⟩ | ⟨rest,hread,hlines,hlt⟩⟩ := ih
      · refine ⟨c::line,.inl ⟨?_,readLines_cons hc hlines⟩⟩
        rw [readLine,if_neg hc,hread]
      · refine ⟨c::line,.inr ⟨rest,?_,readLines_cons hc hlines,Nat.lt_succ_of_lt hlt⟩⟩
        rw [readLine,if_neg hc,hread]

theorem dumpLines_eof (h : 0 < fuel) (rest : List CHAR) :
    dumpLines n fuel ⟨rest,true⟩ i = some [] := by
  obtain ⟨m,rfl⟩ := Nat.exists_eq_succ_of_ne_zero h.ne'
  rfl

/-- One turn of the loop. -/
theorem dumpLines_succ {next : FILE} (hread : readLine text = (line,next)) :
    dumpLines n (fuel+1) ⟨text,false⟩ i =
      if i + 1 ≤ n + dwContext then
        (dumpLines n fuel next (i + 1)).map
          ((if n.toInt32 - dwContext.toInt32 ≤ (i + 1).toInt32 then
            printLine n (i + 1) line else []) ++ ·)
      else some [] := by
  rw [dumpLines,if_neg Bool.false_ne_true,hread]

/-- The loop ends: it prints what its lines give. -/
theorem dumpLines_eq (hfuel : text.length + 1 < fuel) :
    dumpLines n fuel ⟨text,false⟩ i = some (dumpReadLines n i (readLines text)) := by
  induction fuel generalizing text i with
  | zero => omega
  | succ fuel ih =>
    obtain ⟨line,⟨hread,hlines⟩ | ⟨rest,hread,hlines,hlt⟩⟩ := readLine_eq text
    · rw [dumpLines_succ hread,hlines,dumpReadLines,dumpLines_eof (by omega)]
      split_ifs <;> rfl
    · rw [dumpLines_succ hread,hlines,dumpReadLines,ih (by omega)]
      split_ifs <;> rfl

theorem toInt_toInt32 (w : DWORD) :
    w.toInt32.toInt = if w.toNat < 2^31 then (w.toNat : ℤ) else w.toNat - 2^32 := by
  have h := BitVec.toInt_eq_toNat_cond w.toBitVec
  change w.toInt32.toInt = _ at h
  rw [h]
  change (if 2 * w.toNat < 2^32 then (w.toNat : ℤ) else w.toNat - 2^32) = _
  split_ifs <;> omega

/-- The bound of the window below, `(int)dwLineNumber - (int)dwContext`. -/
theorem toInt_sub_context (n : DWORD) : (n.toInt32 - dwContext.toInt32).toInt =
    if n.toNat < 2^31 + 2 then (n.toNat : ℤ) - 2 else n.toNat - 2 - 2^32 := by
  have hlt := n.toNat_lt
  have h2 : dwContext.toInt32.toInt = 2 := by decide
  rw [Int32.toInt_sub,toInt_toInt32,h2,Int.bmod_def]
  split_ifs <;> omega

/-- Inside the window the sums are exact, but an `int` ends at `2^31`. -/
theorem sub_context_le_iff (hn : n.toNat < 2^31 + 2) (hi : i.toNat ≤ n.toNat + 2) :
    n.toInt32 - dwContext.toInt32 ≤ i.toInt32 ↔ n.toNat ≤ i.toNat + 2 ∧ i.toNat < 2^31 := by
  rw [Int32.le_iff_toInt_le,toInt_sub_context,toInt_toInt32,if_pos hn]
  split_ifs <;> omega

theorem toNat_add_context (hn : n.toNat < 2^32 - 2) : (n + dwContext).toNat = n.toNat + 2 := by
  rw [UInt32.toNat_add]
  exact Nat.mod_eq_of_lt (by change n.toNat + 2 < 2^32; omega)

theorem printLine_eq (hi : i.toNat < 2^31) (line : List CHAR) :
    printLine n i line = contextLine n.toNat (line,i.toNat) := by
  rw [printLine,contextLine,toInt_toInt32,if_pos hi]
  simp only [← UInt32.toNat_inj]

theorem selected_cons (n : ℕ) (wanted : ℕ → Bool) (line : List CHAR)
    (lines : List (List CHAR)) (k : ℕ) : selected n wanted (line::lines) k =
      (if wanted k then contextLine n (line,k) else []) ++ selected n wanted lines (k + 1) := by
  rw [selected,List.zipIdx_cons,List.filter_cons]
  split_ifs <;> rfl

/-- Nothing is selected from lines that are not wanted. -/
theorem selected_eq_nil {n k : ℕ} {wanted : ℕ → Bool} {lines : List (List CHAR)}
    (h : ∀ j, k ≤ j → j < k + lines.length → wanted j = false) :
    selected n wanted lines k = [] := by
  rw [selected,List.filter_eq_nil_iff.mpr,List.flatMap_nil]
  intro line hline
  have hk := List.le_snd_of_mem_zipIdx hline
  have hlt := List.snd_lt_add_of_mem_zipIdx hline
  rw [h line.2 hk hlt]
  exact Bool.false_ne_true

/-- What the loop prints: the window, up to the lines that an `int` can number. -/
theorem dumpReadLines_eq (hn : n.toNat < 2^31 + 2) (lines : List (List CHAR)) (k : ℕ)
    (hk : k ≤ n.toNat + 2) : dumpReadLines n (UInt32.ofNat k) lines = selected n.toNat
      (fun j => n.toNat ≤ j + 2 ∧ j ≤ n.toNat + 2 ∧ j < 2^31) lines (k + 1) := by
  induction lines generalizing k with
  | nil => rfl
  | cons line lines ih =>
    have hsucc : UInt32.ofNat k + 1 = UInt32.ofNat (k + 1) := (UInt32.ofNat_add k 1).symm
    have hnat : (UInt32.ofNat (k + 1)).toNat = k + 1 :=
      UInt32.toNat_ofNat_of_lt' (by change k + 1 < 2^32; omega)
    have hle : UInt32.ofNat (k + 1) ≤ n + dwContext ↔ k + 1 ≤ n.toNat + 2 := by
      rw [UInt32.le_iff_toNat_le,hnat,toNat_add_context (by omega)]
    rw [dumpReadLines,hsucc]
    by_cases hlast : k + 1 ≤ n.toNat + 2
    · have hprinted := sub_context_le_iff hn (hnat.trans_le hlast)
      rw [hnat] at hprinted
      rw [if_pos (hle.mpr hlast),ih (k + 1) hlast,selected_cons]
      by_cases hprint : n.toNat ≤ k + 1 + 2 ∧ k + 1 < 2^31
      · have hline := printLine_eq (n:=n) (hnat.trans_lt hprint.2) line
        rw [hnat] at hline
        rw [if_pos (hprinted.mpr hprint),hline,if_pos (by simp only [decide_eq_true_eq]; omega)]
      · rw [if_neg fun h => hprint (hprinted.mp h),
          if_neg (by simp only [decide_eq_true_eq]; omega)]
    · rw [if_neg fun h => hlast (hle.mp h),selected_eq_nil]
      intro j hj _
      simp only [decide_eq_false_iff_not]
      omega

theorem selected_append (n : ℕ) (wanted : ℕ → Bool) (lines rest : List (List CHAR)) (k : ℕ) :
    selected n wanted (lines ++ rest) k =
      selected n wanted lines k ++ selected n wanted rest (k + lines.length) := by
  rw [selected,List.zipIdx_append,List.filter_append,List.flatMap_append]
  rfl

theorem selected_congr {n k : ℕ} {wanted wanted' : ℕ → Bool} {lines : List (List CHAR)}
    (h : ∀ j, k ≤ j → j < k + lines.length → wanted j = wanted' j) :
    selected n wanted lines k = selected n wanted' lines k := by
  rw [selected,selected,List.filter_congr]
  intro line hline
  exact h line.2 (List.le_snd_of_mem_zipIdx hline) (List.snd_lt_add_of_mem_zipIdx hline)

theorem mem_contextLine {n j : ℕ} {marked : Bool} {line : List CHAR × ℕ} :
    .number marked j ∈ contextLine n line ↔ marked = decide (line.2 = n) ∧ j = line.2 := by
  simp [contextLine]

/-- Which numbers appear. -/
theorem mem_selected {n k j : ℕ} {wanted : ℕ → Bool} {lines : List (List CHAR)} :
    .number (decide (j = n)) (j : ℤ) ∈ selected n wanted lines k ↔
      k ≤ j ∧ j < k + lines.length ∧ wanted j = true := by
  rw [selected,List.mem_flatMap]
  constructor
  · rintro ⟨line,hline,hj⟩
    obtain ⟨hmem,hwanted⟩ := List.mem_filter.mp hline
    obtain ⟨_,rfl⟩ := mem_contextLine.mp hj
    exact ⟨List.le_snd_of_mem_zipIdx hmem,List.snd_lt_add_of_mem_zipIdx hmem,hwanted⟩
  · rintro ⟨hk,hlt,hwanted⟩
    have hget : j - k < lines.length := by omega
    refine ⟨(lines[j - k],j),List.mem_filter.mpr ⟨?_,hwanted⟩,mem_contextLine.mpr ⟨rfl,rfl⟩⟩
    exact List.mk_mem_zipIdx_iff_le_and_getElem?_sub.mpr ⟨hk,List.getElem?_eq_getElem hget⟩

theorem readLines_length (text : List CHAR) : (readLines text).length =
    (fileLines text).length + if EndsLine text then 1 else 0 := by
  rw [readLines,List.length_append]
  split_ifs <;> rfl

/-- Where the window of the loop is the right one. -/
theorem selected_readLines_iff {n : ℕ} (hn : n < 2^31 + 2) :
    selected n (fun j => n ≤ j + 2 ∧ j ≤ n + 2 ∧ j < 2^31) (readLines text) 1 =
        sourceContext text n ↔
      ((fileLines text).length < 2^31 ∨ n + 2 < 2^31) ∧
      ¬(EndsLine text ∧ n ≤ (fileLines text).length + 3 ∧ (fileLines text).length < n + 2 ∧
        (fileLines text).length + 1 < 2^31) := by
  constructor
  · intro heq
    have hnumbers (j : ℕ) : (1 ≤ j ∧ j < 1 + (readLines text).length ∧
          n ≤ j + 2 ∧ j ≤ n + 2 ∧ j < 2^31) ↔
        1 ≤ j ∧ j < 1 + (fileLines text).length ∧ n ≤ j + 2 ∧ j ≤ n + 2 := by
      have hmem := congrArg (Printed.number (decide (j = n)) j ∈ ·) heq
      simpa only [sourceContext,mem_selected,decide_eq_true_eq,eq_iff_iff] using hmem
    constructor
    · by_contra hlong
      have hmissed := (hnumbers (2^31)).mpr (by omega)
      omega
    · rintro ⟨hend,hbelow,habove,hint⟩
      have hread := readLines_length text
      rw [if_pos hend] at hread
      have hextra := (hnumbers ((fileLines text).length + 1)).mp (by omega)
      omega
  · rintro ⟨hshort,hextra⟩
    rw [readLines,selected_append,sourceContext]
    have hlast : selected n (fun j => n ≤ j + 2 ∧ j ≤ n + 2 ∧ j < 2^31)
        (if EndsLine text then [[]] else []) (1 + (fileLines text).length) = [] := by
      refine selected_eq_nil fun j hj hlt => decide_eq_false fun hwindow => ?_
      split_ifs at hlt with hend
      · rw [List.length_singleton] at hlt
        exact hextra ⟨hend,by omega⟩
      · rw [List.length_nil] at hlt
        omega
    rw [hlast,List.append_nil]
    refine selected_congr fun j _ hlt => decide_eq_decide.mpr ?_
    omega

theorem readLines_ne_nil (text : List CHAR) : readLines text ≠ [] := by
  cases text with
  | nil =>
    rw [readLines_nil]
    exact List.cons_ne_nil _ _
  | cons c text => exact List.append_ne_nil_of_left_ne_nil fileLines_ne_nil _

/-- From `2^31 + 2` on the signed bound is negative, and line 1 is printed. -/
theorem mem_dumpReadLines_one (hn : 2^31 + 2 ≤ n.toNat) (hne : n.toNat ≠ 2^32 - 2)
    (text : List CHAR) : .number (decide (1 = n.toNat)) ((1 : ℕ) : ℤ) ∈
      dumpReadLines n 0 (readLines text) := by
  obtain ⟨first,rest,hlines⟩ := List.exists_cons_of_ne_nil (readLines_ne_nil text)
  have hlt := n.toNat_lt
  have hturn : 0 + 1 ≤ n + dwContext := by
    rw [UInt32.le_iff_toNat_le,UInt32.toNat_add]
    change 1 ≤ (n.toNat + 2) % 2^32
    omega
  have hprint : n.toInt32 - dwContext.toInt32 ≤ (0 + 1 : DWORD).toInt32 := by
    have h1 : (0 + 1 : DWORD).toInt32.toInt = 1 := by decide
    rw [Int32.le_iff_toInt_le,toInt_sub_context,if_neg (by omega),h1]
    omega
  rw [hlines,dumpReadLines,if_pos hturn,if_pos hprint]
  have hfirst := printLine_eq (n:=n) (i:=0 + 1) (by decide) first
  rw [hfirst]
  exact List.mem_append_left _ (mem_contextLine.mpr ⟨rfl,rfl⟩)

/-- The upper bound of the window is 0: nothing is printed. -/
theorem dumpReadLines_wrap_iff (hn : n.toNat = 2^32 - 2) (text : List CHAR) :
    dumpReadLines n 0 (readLines text) = sourceContext text n.toNat ↔
      (fileLines text).length < 2^32 - 4 := by
  obtain ⟨first,rest,hlines⟩ := List.exists_cons_of_ne_nil (readLines_ne_nil text)
  have hbound : (n + dwContext).toNat = 0 := by
    rw [UInt32.toNat_add,hn]
    rfl
  have hturn : ¬(0 + 1 ≤ n + dwContext) := by
    rw [UInt32.le_iff_toNat_le,hbound]
    decide
  rw [hlines,dumpReadLines,if_neg hturn,sourceContext]
  constructor
  · intro hnil
    by_contra hlong
    have hmem : .number (decide (2^32 - 4 = n.toNat)) ((2^32 - 4 : ℕ) : ℤ) ∈
        selected n.toNat (fun k => n.toNat ≤ k + 2 ∧ k ≤ n.toNat + 2) (fileLines text) 1 :=
      mem_selected.mpr ⟨by decide,by omega,decide_eq_true (by omega)⟩
    rw [← hnil] at hmem
    exact List.not_mem_nil hmem
  · intro hshort
    refine (selected_eq_nil fun j _ hlt => decide_eq_false fun hwindow => ?_).symm
    omega

theorem dumpReadLines_iff (text : List CHAR) (n : DWORD) :
    dumpReadLines n 0 (readLines text) = sourceContext text n.toNat ↔
      ContextExact text n.toNat := by
  rw [ContextExact]
  by_cases hn : n.toNat < 2^31 + 2
  · have hloop := dumpReadLines_eq hn (readLines text) 0 (Nat.zero_le _)
    change dumpReadLines n 0 (readLines text) = _ at hloop
    rw [hloop,if_neg (by omega),selected_readLines_iff hn]
    exact (and_iff_right hn).symm
  · by_cases hne : n.toNat = 2^32 - 2
    · rw [if_pos hne,dumpReadLines_wrap_iff hne]
    · rw [if_neg hne]
      refine iff_of_false (fun heq => ?_) fun h => hn h.1
      have hone := mem_dumpReadLines_one (Nat.le_of_not_lt hn) hne text
      rw [heq,sourceContext,mem_selected] at hone
      have hwindow := of_decide_eq_true hone.2.2
      omega

theorem textMode_length_le (content : List CHAR) : (textMode content).length ≤ content.length := by
  fun_induction textMode content with
  | case1 => exact le_rfl
  | case2 cs ih => simp; omega
  | case3 => exact Nat.zero_le _
  | case4 c cs _ _ ih => simpa using ih

/-- The report shows the context of a line as it should exactly if `ContextExact` holds. -/
theorem dumpSourceCode_exact_iff (content : List CHAR) (dwLineNumber : DWORD) (fuel : ℕ)
    (hfuel : content.length + 1 < fuel) :
    dumpSourceCode (some content) dwLineNumber fuel =
        some (true,sourceContext (textMode content) dwLineNumber.toNat) ↔
      ContextExact (textMode content) dwLineNumber.toNat := by
  have hle := textMode_length_le content
  have hloop : dumpSourceCode (some content) dwLineNumber fuel =
      some (true,dumpReadLines dwLineNumber 0 (readLines (textMode content))) := by
    rw [dumpSourceCode,dumpLines_eq (by omega)]
    rfl
  rw [hloop,← dumpReadLines_iff]
  simp

theorem context_of_unended_line : dumpSourceCode (some [97,10,98]) 1 5 =
    some (true,sourceContext (textMode [97,10,98]) (1 : DWORD).toNat) :=
  (dumpSourceCode_exact_iff [97,10,98] 1 5 (by decide)).mpr (by rw [ContextExact]; decide)

/-- The line behind a trailing newline gets a number. -/
theorem trailing_newline_numbered :
    dumpSourceCode (some [97,10]) 1 4 = some (true,[.number true 1,.char 97,.newline,
      .number false 2,.newline]) ∧
    sourceContext (textMode [97,10]) 1 = [.number true 1,.char 97,.newline] := by
  decide +kernel

end SourceContext
end DrMingw
