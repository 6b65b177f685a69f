import DrMingw.Strings
import DrMingw.Utf

/-! `writeReport`: a wide text goes to the report file in UTF-8, line by line, with CR LF
for every LF. -/
namespace DrMingw
namespace ReportText

open Utf

def WideString.join (chunks : List WideString) : WideString where
  chars := chunks.flatMap WideString.chars
  noNul := by
    intro h
    obtain ⟨t,_,ht⟩ := List.mem_flatMap.mp h
    exact t.noNul ht

/-- The length that `WideCharToMultiByte` returns, the NUL included: 0 when it is more than
an `int` can tell. -/
def cbNeeded (szText : WideString) : ℕ :=
  if (utf8 szText.chars).length + 1 < 2^31 then (utf8 szText.chars).length + 1 else 0

/-- The inner loop, with `q` as what is left of the buffer: the line and the rest from its
LF or NUL on. There is no result when it reads past the end. -/
def scanLine : List CHAR → Option (List CHAR × List CHAR)
  | [] => none
  | c::cs => if c ≠ 0 ∧ c ≠ 10 then (scanLine cs).map fun r => (c::r.1,r.2) else some ([],c::cs)

/-- The outer loop, with `p` as what is left of the buffer: the `WriteFile` calls. -/
def writeLines : ℕ → List CHAR → Option (List (List CHAR))
  | _, [] => none
  | 0, _ => none
  | fuel+1, p =>
    if p.head? = some 0 then some []
    else do
      let (line,q) ← scanLine p
      let cb := UInt32.ofNat line.length -- (DWORD)(q - p)
      match q with
      | [] => none
      | c::rest =>
        if c = 10 then (writeLines fuel rest).map fun w => line.take cb.toNat::[13,10]::w
        else (writeLines fuel q).map fun w => line.take cb.toNat::w

/-- The `WriteFile` calls of `writeReport`; `allocated` tells whether `malloc` succeeds. -/
def writeReport (allocated : Bool) (szText : WideString) (fuel : ℕ) : Option (List (List CHAR)) :=
  if cbNeeded szText = 0 then some []
  else if !allocated then some []
  else writeLines fuel (utf8 szText.chars ++ [0])

/-- What the file gets when texts are written one by one and memory never runs out. -/
def writeReports (fuel : ℕ) : List WideString → Option (List CHAR)
  | [] => some []
  | t::ts => do
    let writes ← writeReport true t fuel
    let rest ← writeReports fuel ts
    return writes.flatten ++ rest

/-- Every LF becomes CR LF. -/
def crlf (s : List CHAR) : List CHAR := s.flatMap fun c => if c = 10 then [13,10] else [c]

/-- No border between the chunks cuts a surrogate pair. -/
def KeepsPairs (chunks : List WideString) : Prop :=
  ∀ pre post, chunks = pre ++ post →
    ¬CutsPair (WideString.join pre).chars (WideString.join post).chars

variable {s rest : List CHAR} {fuel : ℕ}

@[simp] theorem crlf_append (s t : List CHAR) : crlf (s ++ t) = crlf s ++ crlf t :=
  List.flatMap_append

theorem crlf_of_notMem (h : (10 : CHAR) ∉ s) : crlf s = s := by
  induction s with
  | nil => rfl
  | cons c s ih =>
    have hc : c ≠ 10 := (List.ne_of_not_mem_cons h).symm
    rw [crlf,List.flatMap_cons,if_neg hc,← crlf,ih (List.not_mem_of_not_mem_cons h)]
    rfl

/-- Said of the characters of a text. -/
theorem crlf_utf8 (us : List WCHAR) : crlf (utf8 us) =
    (decode us).flatMap fun c => if c = '\n' then [13,10] else String.utf8EncodeChar c := by
  rw [crlf,utf8,List.flatMap_assoc]
  refine List.flatMap_congr fun c _ => ?_
  by_cases hc : c = '\n'
  · subst hc
    decide
  · rw [if_neg hc]
    refine crlf_of_notMem fun hm => hc ?_
    have hn : c.toNat = 10 := (mem_utf8EncodeChar_iff (by decide)).mp hm
    exact Char.toNat_inj.mp hn

variable {line : List CHAR} {c : CHAR}

theorem scanLine_append (h0 : (0 : CHAR) ∉ line) (h10 : (10 : CHAR) ∉ line)
    (hc : c = 0 ∨ c = 10) : scanLine (line ++ c::rest) = some (line,c::rest) := by
  induction line with
  | nil => exact if_neg fun h => hc.elim h.1 h.2
  | cons d line ih =>
    have hd : d ≠ 0 ∧ d ≠ 10 :=
      ⟨(List.ne_of_not_mem_cons h0).symm,(List.ne_of_not_mem_cons h10).symm⟩
    have ih := ih (List.not_mem_of_not_mem_cons h0) (List.not_mem_of_not_mem_cons h10)
    rw [List.cons_append,scanLine,if_pos hd,ih]
    rfl

theorem take_ofNat_length (h : line.length < 2^32) :
    line.take (UInt32.ofNat line.length).toNat = line := by
  rw [UInt32.toNat_ofNat_of_lt' h,List.take_length]

/-- The loop goes on where a line starts. -/
theorem head_ne_zero (h0 : (0 : CHAR) ∉ line) (h : line ≠ [] ∨ c ≠ 0) (rest : List CHAR) :
    (line ++ c::rest).head? ≠ some 0 := by
  cases line with
  | nil => simpa using h
  | cons d line => simpa using (List.ne_of_not_mem_cons h0).symm

/-- A turn of the outer loop on a line that ends with LF. -/
theorem writeLines_line (h0 : (0 : CHAR) ∉ line) (h10 : (10 : CHAR) ∉ line)
    (hlen : line.length < 2^32) : writeLines (fuel+1) (line ++ 10::rest) =
      (writeLines fuel rest).map fun w => line::[13,10]::w := by
  have hhead := head_ne_zero h0 (c:=10) (.inr (by decide)) rest
  rw [writeLines,if_neg hhead,scanLine_append h0 h10 (.inr rfl)]
  · simp only [Option.bind_eq_bind,Option.bind_some,if_pos,take_ofNat_length hlen]
  · simp

/-- A turn on what the text has after its last LF. -/
theorem writeLines_last (h0 : (0 : CHAR) ∉ line) (h10 : (10 : CHAR) ∉ line)
    (hlen : line.length < 2^32) (hne : line ≠ []) :
    writeLines (fuel+1) (line ++ [0]) = (writeLines fuel [0]).map fun w => line::w := by
  have hhead := head_ne_zero h0 (c:=0) (.inl hne) []
  rw [writeLines,if_neg hhead,scanLine_append h0 h10 (.inl rfl)]
  · simp only [Option.bind_eq_bind,Option.bind_some,take_ofNat_length hlen]
    rfl
  · simp

theorem writeLines_end (h : 0 < fuel) : writeLines fuel [0] = some [] := by
  obtain ⟨n,rfl⟩ := Nat.exists_eq_succ_of_ne_zero h.ne'
  rfl

/-- The loop ends, stays in the buffer and writes its bytes with CR LF for LF. -/
theorem writeLines_crlf (h0 : (0 : CHAR) ∉ s) (hlen : s.length < 2^32) (hfuel : s.length < fuel) :
    (writeLines fuel (s ++ [0])).map List.flatten = some (crlf s) := by
  induction fuel generalizing s with
  | zero => omega
  | succ fuel ih =>
    by_cases h10 : (10 : CHAR) ∈ s
    · obtain ⟨line,t,rfl,hline⟩ := List.eq_append_cons_of_mem h10
      have hlength : (line ++ 10::t).length = line.length + t.length + 1 := by simp; omega
      have h0line : (0 : CHAR) ∉ line := fun h => h0 (List.mem_append_left _ h)
      have h0t : (0 : CHAR) ∉ t := fun h =>
        h0 (List.mem_append_right _ (List.mem_cons_of_mem _ h))
      have ih := ih h0t (by omega) (by omega)
      obtain ⟨w,hw,hflat⟩ := Option.map_eq_some_iff.mp ih
      rw [List.append_assoc,List.cons_append,writeLines_line h0line hline (by omega),hw]
      have hcrlf : crlf (10::t) = 13::10::crlf t := rfl
      rw [crlf_append,crlf_of_notMem hline,hcrlf,← hflat]
      rfl
    · by_cases hne : s = []
      · rw [hne]
        rfl
      · have hpos : 0 < s.length := List.length_pos_of_ne_nil hne
        rw [writeLines_last h0 h10 hlen hne,writeLines_end (by omega),crlf_of_notMem h10]
        simp

theorem zero_notMem_utf8 (szText : WideString) : (0 : CHAR) ∉ utf8 szText.chars := by
  intro h
  obtain ⟨u,hu,h0⟩ := (mem_utf8_iff (by decide)).mp h
  have hzero : u = 0 := UInt16.toNat_inj.mp h0
  exact szText.noNul (hzero ▸ hu)

/-- One text: everything or nothing. -/
theorem writeReport_bytes (allocated : Bool) (szText : WideString)
    (hfuel : (utf8 szText.chars).length < fuel) :
    (writeReport allocated szText fuel).map List.flatten =
      some (if allocated ∧ (utf8 szText.chars).length + 1 < 2^31 then
        crlf (utf8 szText.chars) else []) := by
  rw [writeReport,cbNeeded]
  by_cases hlen : (utf8 szText.chars).length + 1 < 2^31
  · rw [if_pos hlen,if_neg (Nat.succ_ne_zero _)]
    cases allocated with
    | false => simp
    | true =>
      rw [if_neg (by decide),if_pos ⟨rfl,hlen⟩]
      exact writeLines_crlf (zero_notMem_utf8 szText) (by omega) hfuel
  · rw [if_neg hlen,if_pos rfl,if_neg fun h => hlen h.2]
    rfl

theorem KeepsPairs.tail {t : WideString} {ts : List WideString} (h : KeepsPairs (t::ts)) :
    KeepsPairs ts := by
  intro pre post heq hcut
  refine h (t::pre) post (congrArg (t::·) heq) ?_
  exact hcut.append_left t.chars

theorem utf8_join_cons {t : WideString} {ts : List WideString} (h : KeepsPairs (t::ts)) :
    utf8 (WideString.join (t::ts)).chars = utf8 t.chars ++ utf8 (WideString.join ts).chars := by
  have hcut := h [t] ts rfl
  have ht : (WideString.join [t]).chars = t.chars := List.flatMap_singleton ..
  rw [ht] at hcut
  exact utf8_append hcut

/-- Chunks that cut no pair give the bytes of the whole. -/
theorem writeReports_bytes {chunks : List WideString} (hkeep : KeepsPairs chunks)
    (hlen : (utf8 (WideString.join chunks).chars).length + 1 < 2^31)
    (hfuel : (utf8 (WideString.join chunks).chars).length < fuel) :
    writeReports fuel chunks = some (crlf (utf8 (WideString.join chunks).chars)) := by
  induction chunks with
  | nil => rfl
  | cons t ts ih =>
    have hutf8 := utf8_join_cons hkeep
    have hlength := congrArg List.length hutf8
    rw [List.length_append] at hlength
    have ih := ih hkeep.tail (by omega) (by omega)
    have hfuel_t : (utf8 t.chars).length < fuel := by omega
    have ht := writeReport_bytes true t hfuel_t
    rw [if_pos ⟨rfl,by omega⟩] at ht
    obtain ⟨w,hw,hflat⟩ := Option.map_eq_some_iff.mp ht
    rw [writeReports,hw,ih,hutf8,crlf_append,← hflat]
    rfl

/-- Whenever memory suffices and the UTF-8 form fits an `int`, the file gets that form with
CR LF for LF, also when the text comes in chunks; else it gets nothing. -/
theorem writeReport_faithful (allocated : Bool) (szText : WideString) (fuel : ℕ)
    (hfuel : (utf8 szText.chars).length < fuel) :
    (writeReport allocated szText fuel).map List.flatten =
        some (if allocated ∧ (utf8 szText.chars).length + 1 < 2^31 then
          crlf (utf8 szText.chars) else []) ∧
      ∀ chunks, WideString.join chunks = szText → KeepsPairs chunks →
        allocated ∧ (utf8 szText.chars).length + 1 < 2^31 →
          writeReports fuel chunks = (writeReport allocated szText fuel).map List.flatten := by
  have hwhole := writeReport_bytes allocated szText hfuel
  refine ⟨hwhole,?_⟩
  rintro chunks rfl hkeep hfits
  rw [hwhole,if_pos hfits,writeReports_bytes hkeep hfits.2 hfuel]

theorem keepsPairs_of_not_high {chunks : List WideString}
    (h : chunks.all (fun t => t.chars.all (!isHigh ·)) = true) : KeepsPairs chunks := by
  rintro pre post rfl ⟨u,hu,_,_,hhigh,_⟩
  obtain ⟨t,ht,hut⟩ := List.mem_flatMap.mp (List.mem_of_getLast? hu)
  have hchars := List.all_eq_true.mp h t (List.mem_append_left _ ht)
  have hlow := List.all_eq_true.mp hchars u hut
  rw [hhigh] at hlow
  contradiction

theorem blank_line_in_chunks :
    writeReports 6 [⟨wide "a\n",by decide⟩,⟨wide "\né",by decide⟩] =
      (writeReport true ⟨wide "a\n\né",by decide⟩ 6).map List.flatten := by
  refine (writeReport_faithful true ⟨wide "a\n\né",by decide⟩ 6 (by decide)).2 _ rfl ?_
    ⟨rfl,by decide⟩
  exact keepsPairs_of_not_high (by decide)

theorem utf8_replicate (n : ℕ) : utf8 (List.replicate n 97) = List.replicate n 97 := by
  induction n with
  | zero => rfl
  | succ n ih =>
    have hcut : ¬CutsPair [97] (List.replicate n 97) := by
      rintro ⟨u,hu,-,-,hhigh,-⟩
      obtain rfl : 97 = u := Option.some.inj hu
      exact absurd hhigh (by decide)
    rw [List.replicate_succ,← List.singleton_append,utf8_append hcut,ih]
    rfl

/-- A text of `n` letters. -/
def letters (n : ℕ) : WideString :=
  ⟨List.replicate n 97,fun h => absurd (List.eq_of_mem_replicate h) (by decide)⟩

theorem crlf_letters (n : ℕ) : crlf (utf8 (letters n).chars) = List.replicate n 97 := by
  rw [letters,utf8_replicate]
  exact crlf_of_notMem fun h => absurd (List.eq_of_mem_replicate h) (by decide)

theorem writeReport_letters {n : ℕ} (h : 2^31 ≤ n + 1) (fuel : ℕ) :
    writeReport true (letters n) fuel = some [] := by
  have hneeded : cbNeeded (letters n) = 0 := by
    rw [cbNeeded,letters,utf8_replicate,List.length_replicate]
    exact if_neg (Nat.not_lt.mpr h)
  exact if_pos hneeded

/-- Nothing is written of a letter when there is no memory, and of 2^31 - 1 letters, which
take 2^31 bytes with the NUL, when there is. -/
theorem nothing_written :
    (writeReport false ⟨wide "a",by decide⟩ 2 = some [] ∧ crlf (utf8 (wide "a")) = [97]) ∧
    writeReport true (letters (2^31 - 1)) (2^31) = some [] ∧
      crlf (utf8 (letters (2^31 - 1)).chars) = List.replicate (2^31 - 1) 97 :=
  ⟨by decide,writeReport_letters (by decide) _,crlf_letters _⟩

end ReportText
end DrMingw
