import DrMingw.RegistryInvariant

/-! Symbol lookups and the load address: the modules of the registry record the size
and the image base of the file they map, so that the COFF answer of `MgwSymFromAddrW`
is found in the image alone. -/
namespace DrMingw
open PeImage

/-- The size and the image base recorded with a module are those of its image. -/
def Module.Records (b : Build) (m : Module) : Prop :=
  fileSize b m.image = some m.nFileSize ∧ PEGetImageBase b m.image = some m.image_base_vma

/-- All modules of the registry record their images. -/
def AllRecord (b : Build) (ps : List Process) : Prop :=
  ∀ p ∈ ps, ∀ m ∈ p.modules, m.Records b

/-- A lookup of the address `Base + rva`, after any calls, in a module loaded at
`Base` that has the image, and has no DWARF answer. -/
structure CoffLookup (e : Environment) (image : Image) (rva : DWORD64) where
  qs : List Request
  s : MgwHelp
  reached : mgwhelpAfter e qs = some s
  w : World
  hProcess : HANDLE
  Base : DWORD64
  module : Module
  Offset : DWORD64
  registry : Registry
  base : GetModuleBase e.toSetting w hProcess (Base + rva) = Base
  found : mgwhelp_find_module e.toSetting w hProcess (Base + rva) s.registry =
    some (some (module,Offset),registry)
  image : module.image = image
  dwarf : (module.events e (Base + rva)).bind dwarf_find_symbol = none

/-- The COFF answer of `MgwSymFromAddrW`. -/
def CoffLookup.answer {e : Environment} {image : Image} {rva : DWORD64}
    (l : CoffLookup e image rva) (d : DbgHelp) (Displacement : Option DWORD64)
    (Symbol : SymbolInfo WCHAR) :
    Option (Option (Reply DWORD64 (SymbolInfo WCHAR)) × Option DWORD64) :=
  (ownSymbol e l.w d l.hProcess (l.Base + rva) Displacement Symbol l.s.registry).map (·.1)

variable {e : Environment} {w : World} {h hFile : HANDLE} {name : Option (List WCHAR)}
  {base address Offset : DWORD64} {m : Module} {k k' : Kernel} {r r' : Registry} {qs : List Request}
  {s : MgwHelp}

theorem mapModule_records {memory : Resource} {name : List WCHAR} {file : FileId}
    (hm : mapModule e.toSetting w memory base name file k = some (some m,k')) :
    m.Records e.build := by
  simp only [mapModule] at hm
  split at hm
  · simp at hm
  · split at hm
    · simp at hm
    · split at hm
      · next hs hb =>
        obtain ⟨x,-,hx⟩ := Option.map_eq_some_iff.mp hm
        simp only [Prod.mk.injEq,Option.some.injEq] at hx
        obtain ⟨rfl,-⟩ := hx
        exact ⟨hs,hb⟩
      · simp at hm

theorem module_create_records
    (hc : mgwhelp_module_create e.toSetting w h hFile name base k = some (some m,k')) :
    m.Records e.build := by
  simp only [mgwhelp_module_create] at hc
  split at hc
  · simp at hc
  · split at hc
    · simp at hc
    · split at hc
      · obtain ⟨x,hx,hk⟩ := Option.map_eq_some_iff.mp hc
        have ho := keepOrFree_some hk
        exact mapModule_records (hx.trans (congrArg some (Prod.ext ho rfl)))
      · split at hc
        · simp at hc
        · obtain ⟨x,hx,hk⟩ := Option.map_eq_some_iff.mp hc
          have hm := keepOrFree_some hk
          have ho : x.1 = some m := hm
          exact mapModule_records (hx.trans (congrArg some (Prod.ext ho rfl)))

/-- A search finds a module that records its image. -/
theorem module_lookup_records (hr : AllRecord e.build r.processes)
    (hl : mgwhelp_module_lookup e.toSetting w h hFile name base r = some (some m,r')) :
    m.Records e.build := by
  rcases module_lookup_cases hl with ⟨-,ho,-⟩ | ⟨p,hp,⟨m',hm,ho,-⟩ | ⟨k,-,hc,-⟩⟩
  · simp at ho
  · obtain rfl := Option.some.inj ho
    exact hr p (process_lookup_some hp).1 _ (List.mem_of_find?_eq_some hm)
  · exact module_create_records hc

theorem mem_unlinkProcess {ps : List Process} {p : Process}
    (hp : p ∈ (unlinkProcess h ps k).1) : p ∈ ps := by
  induction ps with
  | nil => exact hp
  | cons q ps ih =>
    simp only [unlinkProcess] at hp
    split at hp
    · exact List.mem_cons_of_mem q hp
    · rcases List.mem_cons.mp hp with rfl | hp
      · exact List.mem_cons_self
      · exact List.mem_cons_of_mem q (ih hp)

/-- No call brings in a module that does not record its image. -/
theorem allRecord_apply {f : Effect} (hr : AllRecord e.build r.processes)
    (ha : f.apply e w r = some r') : AllRecord e.build r'.processes := by
  cases f with
  | nothing =>
    obtain rfl := by simpa [Effect.apply] using ha
    exact hr
  | start h =>
    obtain rfl := by simpa [Effect.apply] using ha
    simp only [ mgwhelp_initialize]
    split
    · exact hr
    · intro p hp
      rcases List.mem_cons.mp hp with rfl | hp
      · simp
      · exact hr p hp
  | search x =>
    obtain ⟨⟨o,r₁⟩,hl,rfl⟩ := Option.map_eq_some_iff.mp ha
    rcases module_lookup_cases hl with ⟨-,-,rfl⟩ | ⟨p,hp,⟨m,-,-,rfl⟩ | ⟨k,hm,hc,rfl⟩⟩
    · exact hr
    · exact hr
    · cases o with
      | none => exact hr
      | some m =>
        intro p' hp'
        rcases mem_linkModule hp' with hin | ⟨p₀,hp₀,rfl⟩
        · exact hr p' hin
        · intro x hx
          rcases List.mem_cons.mp hx with rfl | hx
          · exact module_create_records hc
          · exact hr p₀ (process_lookup_some hp₀).1 x hx
  | cleanup h =>
    obtain rfl := by simpa [Effect.apply] using ha
    exact fun p hp => hr p (mem_unlinkProcess hp)

theorem allRecord_run (hs : mgwhelpAfter e qs = some s) :
    AllRecord e.build s.registry.processes :=
  Machine.ofPartial_run (P:=fun _ s => AllRecord e.build s.registry.processes) (by simp [AllRecord])
    (fun _ _ _ _ _ hr hstep => allRecord_apply hr (step_effect hstep)) hs

/-- The offset of an address is the image base and the distance from the load address. -/
theorem find_module_offset
    (hf : mgwhelp_find_module e.toSetting w h address r = some (some (m,Offset),r')) :
    Offset = m.image_base_vma + address - m.Base := by
  unfold mgwhelp_find_module at hf
  dsimp only at hf
  split at hf
  · simp at hf
  · obtain ⟨⟨o,r₁⟩,-,hx⟩ := Option.map_eq_some_iff.mp hf
    obtain ⟨ho,-⟩ := Prod.mk.inj hx
    obtain ⟨m',rfl,hm⟩ := Option.map_eq_some_iff.mp ho
    obtain ⟨rfl,rfl⟩ := Prod.mk.inj hm
    rfl

theorem find_module_records (hr : AllRecord e.build r.processes)
    (hf : mgwhelp_find_module e.toSetting w h address r = some (some (m,Offset),r')) :
    m.Records e.build := by
  unfold mgwhelp_find_module at hf
  dsimp only at hf
  split at hf
  · simp at hf
  · obtain ⟨⟨o,r₁⟩,hl,hx⟩ := Option.map_eq_some_iff.mp hf
    obtain ⟨ho,-⟩ := Prod.mk.inj hx
    obtain ⟨m',rfl,hm⟩ := Option.map_eq_some_iff.mp ho
    obtain ⟨rfl,-⟩ := Prod.mk.inj hm
    exact module_lookup_records hr hl

/-- The answer is found in the image alone, whatever it is loaded at. -/
theorem CoffLookup.answer_eq {image : Image} {rva : DWORD64} (l : CoffLookup e image rva)
    (d : DbgHelp) (Displacement : Option DWORD64) (Symbol : SymbolInfo WCHAR) :
    ∃ nFileSize vma, fileSize e.build image = some nFileSize ∧
      PEGetImageBase e.build image = some vma ∧
      l.answer d Displacement Symbol =
        (pe_find_symbol e.build image nFileSize (vma + rva)).map fun answer =>
          (answer.name.map fun symbol =>
            ⟨true,answer.displacement Displacement,Symbol.setName (e.codePages.ansiToWide
              (reportedName e d (cstr (strncpy symbol 1024))))⟩,
            answer.displacement Displacement) := by
  obtain ⟨hsize,hvma⟩ := find_module_records (allRecord_run l.reached) l.found
  have hoffset : l.Offset = l.module.image_base_vma + rva := by
    have hb : l.module.Base = l.Base := (find_module_base l.found).trans l.base
    rw [find_module_offset l.found,hb,UInt64.add_comm l.Base,← UInt64.add_assoc,
      UInt64.add_sub_cancel]
  rw [l.image] at hsize hvma
  refine ⟨_,_,hsize,hvma,?_⟩
  simp only [CoffLookup.answer,ownSymbol,l.found,l.dwarf,l.image,hoffset,Option.map_map,
    Function.comp_def]

end DrMingw
