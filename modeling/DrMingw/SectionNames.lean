import DrMingw.CStrings
import DrMingw.ImageReferences

/-! Section names: the eight bytes of the `Name` field, or the entry of the string table
that their digits lead to, against the C string that `as_name` points at. -/
namespace DrMingw
namespace PeImage

variable (b : Build) (image : Image) (section_index : ℕ)

/-- The eight bytes of the field `Name`. -/
def nameField : List CHAR :=
  (List.range 8).map fun k : ℕ => byteAt image (sectionHeader b image (section_index - 1) + k)

/-- The low byte of `VirtualSize`, right behind the name. -/
def behindName : CHAR := byteAt image (sectionHeader b image (section_index - 1) + 8)

/-- The digits behind the slash, in the field. -/
def fieldDigits : List CHAR := (nameField b image section_index).tail.takeWhile isDigit

/-- A name is what stands in the field before a NUL, or the entry of the string table at
the offset that the digits in the field give. -/
def DecodesName : Prop :=
  if (nameField b image section_index).head? = some 47 then
    sectionName b image section_index =
      pointer b (stringTable b image + decimal (fieldDigits b image section_index))
  else (pe_get_section_info b image section_index).2 = cstr (nameField b image section_index)

/-- The digits are followed by another byte, in the field or behind it, unless they are
all 0. A name that is no offset ends in the field or right behind it. -/
def NameEnds : Prop :=
  if (nameField b image section_index).head? = some 47 then
    (fieldDigits b image section_index ≠ [] ∧
      ((fieldDigits b image section_index).length = 7 →
        isDigit (behindName b image section_index) = false)) ∨
      ∀ c ∈ atoiDigits (stringAt image (sectionHeader b image (section_index - 1))).tail, c = 48
  else 0 ∈ nameField b image section_index ∨ behindName b image section_index = 0

variable {b image section_index}

theorem nameField_length (b : Build) (image : Image) (section_index : ℕ) :
    (nameField b image section_index).length = 8 := by simp [nameField]

/-- A string in the file: its first `n` bytes, zeros behind the file included, and what
follows them. -/
theorem cstr_drop (image : Image) (p n : ℕ) : cstr (image.drop p) =
    cstr ((List.range n).map (fun k => byteAt image (p + k : ℕ)) ++ image.drop (p + n)) := by
  induction n with
  | zero => simp
  | succ n ih =>
    have hnext : cstr (image.drop (p + n)) =
        cstr (byteAt image (p + n : ℕ)::image.drop (p + (n + 1))) := by
      by_cases hlt : p + n < image.length
      · rw [List.drop_eq_getElem_cons hlt,byteAt,if_neg (by omega),Int.toNat_natCast,
          List.getD_eq_getElem?_getD,List.getElem?_eq_getElem hlt,Option.getD_some,Nat.add_assoc]
      · rw [byteAt_behind (by omega),List.drop_eq_nil_of_le (by omega)]
        rfl
    rw [ih,List.range_succ,List.map_append,List.append_assoc,cstr_append,cstr_append,hnext]
    rfl

/-- The name in the header: the field, and the header behind it when no NUL is in it. -/
theorem headerName_eq : stringAt image (sectionHeader b image (section_index - 1)) =
    cstr (nameField b image section_index ++ behindName b image section_index::
      image.drop ((sectionHeader b image (section_index - 1)).toNat + 9)) := by
  generalize hp : sectionHeader b image (section_index - 1) = p
  by_cases hneg : p < 0
  · have hhead : nameField b image section_index = 0::(nameField b image section_index).tail := by
      rw [nameField,hp,List.range_succ_eq_map,List.map_cons,List.tail_cons,byteAt,if_pos (by omega)]
    rw [stringAt,if_pos hneg,hhead,List.cons_append,cstr_cons,if_pos rfl]
  · obtain ⟨n,rfl⟩ : ∃ n : ℕ, p = n := ⟨p.toNat,by omega⟩
    rw [stringAt,if_neg hneg,Int.toNat_natCast,cstr_drop image n 9,List.range_succ,List.map_append,
      List.append_assoc,nameField,behindName,hp]
    rfl

/-- The first byte of the field decides on the kind of name. -/
theorem headerName_head :
    (stringAt image (sectionHeader b image (section_index - 1))).head? = some 47 ↔
      (nameField b image section_index).head? = some 47 := by
  rw [headerName_eq]
  cases hfield : nameField b image section_index with
  | nil => simpa [hfield] using nameField_length b image section_index
  | cons c ds =>
    rw [List.cons_append,cstr_cons]
    by_cases hc : c = 0
    · simp [hc]
    · simp [hc]

/-- Places less than 2^32 apart are different to a 32-bit build as well. -/
theorem pointer_add_inj {table m n : ℤ} (h : |m - n| < 2^32) :
    pointer b (table + m) = pointer b (table + n) ↔ m = n := by
  rw [abs_lt] at h
  simp only [pointer]
  split
  · omega
  · omega

/-- A name with a slash is found by its digits if `atoi` reads these and no others. -/
theorem decodesName_offset (h : (nameField b image section_index).head? = some 47) :
    DecodesName b image section_index ↔ NameEnds b image section_index := by
  have hhead := headerName_head.mpr h
  obtain ⟨ds,hds⟩ : ∃ ds, nameField b image section_index = 47::ds := List.head?_eq_some_iff.mp h
  have hlen : ds.length = 7 := by
    have hfield := nameField_length b image section_index
    rw [hds,List.length_cons] at hfield
    omega
  have hdigits : fieldDigits b image section_index = ds.takeWhile isDigit := by
    rw [fieldDigits,hds,List.tail_cons]
  have htail : (stringAt image (sectionHeader b image (section_index - 1))).tail =
      cstr (ds ++ behindName b image section_index::
        image.drop ((sectionHeader b image (section_index - 1)).toNat + 9)) := by
    rw [headerName_eq,hds,List.cons_append,cstr_cons,if_neg (by decide),List.tail_cons]
  have hsmall : decimal (ds.takeWhile isDigit) < 10^7 := hlen ▸ decimal_takeWhile_lt ds
  obtain ⟨hlow,hhigh⟩ := atoi_bounds (cstr (ds ++ behindName b image section_index::
    image.drop ((sectionHeader b image (section_index - 1)).toNat + 9)))
  rw [DecodesName,if_pos h,NameEnds,if_pos h,sectionName,if_pos hhead,hdigits,htail,
    pointer_add_inj (by rw [abs_lt]; omega),atoi_field_iff ds _ _ hlen.le,hlen]

/-- Any other name is the field up to its NUL, or runs into the header behind it. -/
theorem decodesName_short (h : (nameField b image section_index).head? ≠ some 47)
    (hpos : 0 < section_index) :
    DecodesName b image section_index ↔ NameEnds b image section_index := by
  have hhead := mt headerName_head.mp h
  rw [DecodesName,if_neg h,NameEnds,if_neg h,pe_get_section_info_name hpos,sectionName,if_neg hhead,
    headerName_eq,cstr_append]
  by_cases hz : 0 ∈ nameField b image section_index
  · simp [hz]
  · rw [if_neg hz,cstr_of_notMem hz,cstr_cons]
    by_cases hc : behindName b image section_index = 0
    · simp [hc]
    · simp [hc,hz]

/-- The name as the format defines it. -/
def definedName (b : Build) (image : Image) (section_index : ℕ) : List CHAR :=
  if (nameField b image section_index).head? = some 47 then
    stringAt image (pointer b (stringTable b image + decimal (fieldDigits b image section_index)))
  else cstr (nameField b image section_index)

theorem DecodesName.eq_definedName (h : DecodesName b image section_index)
    (hpos : 0 < section_index) :
    (pe_get_section_info b image section_index).2 = definedName b image section_index := by
  rw [DecodesName] at h
  rw [definedName]
  split
  · next hslash =>
    rw [if_pos hslash] at h
    rw [pe_get_section_info_name hpos,h]
  · next hslash => rwa [if_neg hslash] at h

/-- The name of a section is decoded if and only if it ends where its field does. -/
theorem section_name_decoded_iff (b : Build) (image : Image) (section_index : ℕ) :
    (DecodesName b image (section_index + 1) ↔ NameEnds b image (section_index + 1)) ∧
      (NameEnds b image (section_index + 1) →
        (pe_get_section_info b image (section_index + 1)).2 =
          definedName b image (section_index + 1)) := by
  have hiff : DecodesName b image (section_index + 1) ↔ NameEnds b image (section_index + 1) := by
    by_cases h : (nameField b image (section_index + 1)).head? = some 47
    · exact decodesName_offset h
    · exact decodesName_short h section_index.succ_pos
  exact ⟨hiff,fun h => (hiff.mpr h).eq_definedName section_index.succ_pos⟩

/-- A section named `.textbss` of 65 bytes and one named `/0000004` of 56 bytes, with
`.debug_info` at offset 4 of the string table. -/
def fullNames : Image :=
  imageHeaders 2 408 0 ++ sectionBytes [46,116,101,120,116,98,115,115] 65 0x1000 512 512 ++
    sectionBytes [47,48,48,48,48,48,48,52] 56 0x2000 512 512 ++
    littleEndian 4 16 ++ [46,100,101,98,117,103,95,105,110,102,111,0]

/-- The size of the first is read as a letter `A`, that of the second as a digit 8. -/
theorem full_names_misread :
    ¬DecodesName {} fullNames 1 ∧
      (pe_get_section_info {} fullNames 1).2 = [46,116,101,120,116,98,115,115,65] ∧
      ¬DecodesName {} fullNames 2 ∧ (pe_get_section_info {} fullNames 2).2 = [] ∧
      definedName {} fullNames 2 = [46,100,101,98,117,103,95,105,110,102,111] := by
  refine ⟨?_,by decide +kernel,?_,by decide +kernel,by decide +kernel⟩
  · rw [DecodesName]
    decide +kernel
  · rw [DecodesName]
    decide +kernel

end PeImage
end DrMingw
