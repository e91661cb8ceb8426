/-
Renderings of classes. A class is written in a Dalvik file with its names between `L` and `;`, with
descriptors that may have blanks anywhere, and with flags above the sixteen bits of class files. The
definition that such a class stands for is the one that was rendered, and a definition of this form
is not changed by being written as a class file and read again.
-/
import JndiScan.Dalvik.Class
import JndiScan.Proofs.ClassFile.Recoding
import JndiScan.Proofs.ClassName.SlashForm

namespace JndiScan

/-! ## Blanks in descriptors -/

namespace Text

/-- The second text is the first one with blanks put in anywhere. -/
inductive Blanked : Text → Text → Prop
  | nil : Blanked [] []
  | keep {t u : Text} (c : CodePoint) : Blanked t u → Blanked (c :: t) (c :: u)
  | blank {t u : Text} {c : CodePoint} : isBlank c = true → Blanked t u → Blanked t (c :: u)

theorem blanked_self (t : Text) : Blanked t t := by
  induction t with
  | nil => exact .nil
  | cons c t ih => exact .keep c ih

theorem squeeze_of_blanked {t u : Text} (h : Blanked t u) (ht : ∀ c ∈ t, isBlank c = false) :
    u.squeeze = t := by
  induction h with
  | nil => rfl
  | keep c _ ih =>
    have hc : isBlank c = false := ht c (List.mem_cons_self ..)
    rw [squeeze, List.filter_cons_of_pos (by simp [hc]), ← squeeze,
      ih fun c h => ht c (List.mem_cons_of_mem _ h)]
  | blank hc _ ih => rw [squeeze, List.filter_cons_of_neg (by simp [hc]), ← squeeze, ih ht]

end Text

/-! ## Definitions and their renderings -/

/-- Are the flags of sixteen bits? -/
def Access.IsShort (flags : Int) : Prop := 0 ≤ flags ∧ flags ≤ 0xFFFF

/-- The second flags are the first ones with any bits above the lowest sixteen. -/
def Access.Extends (flags more : Int) : Prop := ∃ k : Int, more = flags + 0x10000 * k

theorem Access.low16_of_extends {flags more : Int} (hshort : IsShort flags)
    (h : Extends flags more) : (low16 more : Int) = flags := by
  obtain ⟨k, rfl⟩ := h
  obtain ⟨hlow, hhigh⟩ := hshort
  rw [low16]
  omega

theorem Access.extends_self (flags : Int) : Extends flags flags := ⟨0, by omega⟩

/-- A member that is its own class-file form: its descriptor has no blanks, its flags are of sixteen
bits, and its kind is told by its name unless it is a field. -/
structure Member.Exact (m : Member) : Prop where
  descriptor : ∀ c ∈ m.descriptor, Text.isBlank c = false
  flags : Access.IsShort m.accessFlags
  kind : m.kind = .field ∨ m.kind = .ofMethodName m.name

/-- A definition that is its own class-file form: it has a name, the names of classes have no dots,
its members are such members, fields first. -/
structure ClassDefinition.Exact (d : ClassDefinition) : Prop where
  ne_nil : d.name ≠ []
  name : .ofChar '.' ∉ d.name
  superName : ∀ n, d.superName = some n → n ≠ [] ∧ .ofChar '.' ∉ n
  interfaces : ∀ n ∈ d.interfaces, .ofChar '.' ∉ n
  flags : Access.IsShort d.accessFlags
  members : ∀ m ∈ d.members, m.Exact
  fieldsFirst : d.members = d.fields ++ d.methods

theorem ClassDefinition.mem_fields {d : ClassDefinition} {m : Member} :
    m ∈ d.fields ↔ m ∈ d.members ∧ m.kind = .field := by
  simp [fields]

theorem ClassDefinition.mem_methods {d : ClassDefinition} {m : Member} :
    m ∈ d.methods ↔ m ∈ d.members ∧ m.kind ≠ .field := by
  simp [methods]

namespace ClassDefinition.Exact

variable {d : ClassDefinition} {m : Member}

theorem field (h : d.Exact) (hm : m ∈ d.fields) : m.Exact ∧ m.kind = .field :=
  ⟨h.members m (mem_fields.1 hm).1, (mem_fields.1 hm).2⟩

theorem method (h : d.Exact) (hm : m ∈ d.methods) : m.Exact ∧ m.kind = .ofMethodName m.name :=
  have hexact := h.members m (mem_methods.1 hm).1
  ⟨hexact, hexact.kind.resolve_left (mem_methods.1 hm).2⟩

end ClassDefinition.Exact

namespace Dalvik

/-- A raw member that stands for a member: blanks may be put into its descriptor, and bits above the
lowest sixteen may be set in its flags. -/
structure RawMember.Renders (r : RawMember) (m : Member) : Prop where
  name : r.name = m.name
  descriptor : Text.Blanked m.descriptor r.descriptor
  flags : Access.Extends m.accessFlags r.accessFlags

/-- A raw class that stands for a definition. -/
structure RawClass.Renders (c : RawClass) (d : ClassDefinition) : Prop where
  name : c.name = ClassName.wrap d.name
  superName : c.superName = (d.superName.map ClassName.wrap).getD []
  interfaces : c.interfaces.toList = d.interfaces.map ClassName.wrap
  flags : Access.Extends d.accessFlags c.accessFlags
  fields : List.Forall₂ RawMember.Renders c.fields d.fields
  methods : List.Forall₂ RawMember.Renders c.methods d.methods

/-- The rendering without further blanks and bits. -/
def RawMember.ofMember (m : Member) : RawMember := ⟨m.name, m.descriptor, m.accessFlags⟩

/-- The rendering without further blanks and bits. -/
def RawClass.ofDefinition (d : ClassDefinition) : RawClass where
  name := ClassName.wrap d.name
  superName := (d.superName.map ClassName.wrap).getD []
  accessFlags := d.accessFlags
  interfaces := .names (d.interfaces.map ClassName.wrap)
  fields := d.fields.map .ofMember
  methods := d.methods.map .ofMember

theorem RawMember.renders_ofMember (m : Member) : (ofMember m).Renders m :=
  ⟨rfl, Text.blanked_self m.descriptor, Access.extends_self m.accessFlags⟩

/-- Every definition has a rendering. -/
theorem RawClass.renders_ofDefinition (d : ClassDefinition) : (ofDefinition d).Renders d where
  name := rfl
  superName := rfl
  interfaces := rfl
  flags := Access.extends_self d.accessFlags
  fields := List.forall₂_map_left_iff.2
    (List.forall₂_same.2 fun m _ => RawMember.renders_ofMember m)
  methods := List.forall₂_map_left_iff.2
    (List.forall₂_same.2 fun m _ => RawMember.renders_ofMember m)

theorem renders_map_ofDefinition (ds : List ClassDefinition) :
    List.Forall₂ RawClass.Renders (ds.map .ofDefinition) ds :=
  List.forall₂_map_left_iff.2 (List.forall₂_same.2 fun d _ => RawClass.renders_ofDefinition d)

theorem RawMember.toMember_of_renders {r : RawMember} {m : Member} (h : r.Renders m) (hm : m.Exact)
    {kind : MemberKind} (hkind : m.kind = kind) : r.toMember kind = m := by
  have hdescriptor : ClassName.compactDescriptor r.descriptor = m.descriptor :=
    Text.squeeze_of_blanked h.descriptor hm.descriptor
  rw [toMember, hdescriptor, h.name, Access.low16_of_extends hm.flags h.flags, ← hkind]

theorem map_toMember_of_renders (kindOf : Text → MemberKind) {rs : List RawMember}
    {ms : List Member} (h : List.Forall₂ RawMember.Renders rs ms) (hms : ∀ m ∈ ms, m.Exact)
    (hkinds : ∀ m ∈ ms, m.kind = kindOf m.name) :
    rs.map (fun r => r.toMember (kindOf r.name)) = ms := by
  induction h with
  | nil => rfl
  | cons hr _ ih =>
    rw [List.map_cons, ih (fun m hm => hms m (List.mem_cons_of_mem _ hm))
      (fun m hm => hkinds m (List.mem_cons_of_mem _ hm)), hr.name,
      RawMember.toMember_of_renders hr (hms _ (List.mem_cons_self ..))
        (hkinds _ (List.mem_cons_self ..))]

/-- A rendering stands for the definition that was rendered. -/
theorem RawClass.toDefinition_of_renders {c : RawClass} {d : ClassDefinition} (h : c.Renders d)
    (hd : d.Exact) : c.toDefinition = d := by
  have hname : ClassName.slashForm c.name = d.name := by
    rw [h.name, ClassName.slashForm_wrap hd.name]
  have hsuper : (if (ClassName.slashForm c.superName).isEmpty then none
      else some (ClassName.slashForm c.superName)) = d.superName := by
    rw [h.superName]
    cases hs : d.superName with
    | none => rfl
    | some n =>
      obtain ⟨hn, hdot⟩ := hd.superName n hs
      simp [ClassName.slashForm_wrap hdot, hn]
  have hinterfaces : (c.interfaces.toList.filter (!·.isEmpty)).map ClassName.slashForm =
      d.interfaces := by
    rw [h.interfaces, List.filter_eq_self.2 (by simp [ClassName.wrap]), List.map_map]
    refine (List.map_congr_left fun n hn => ?_).trans (List.map_id _)
    exact ClassName.slashForm_wrap (hd.interfaces n hn)
  have hfields : c.fields.map (·.toMember .field) = d.fields :=
    map_toMember_of_renders (fun _ => .field) h.fields (fun _ hm => (hd.field hm).1)
      fun _ hm => (hd.field hm).2
  have hmethods : c.methods.map (fun m => m.toMember (.ofMethodName m.name)) = d.methods :=
    map_toMember_of_renders .ofMethodName h.methods (fun _ hm => (hd.method hm).1)
      fun _ hm => (hd.method hm).2
  rw [toDefinition]
  simp only [hname, hsuper, hinterfaces, hfields, hmethods, ← hd.fieldsFirst,
    Access.low16_of_extends hd.flags h.flags]

theorem map_toDefinition_of_renders {cs : List RawClass} {ds : List ClassDefinition}
    (h : List.Forall₂ RawClass.Renders cs ds) (hds : ∀ d ∈ ds, d.Exact) :
    cs.map RawClass.toDefinition = ds := by
  induction h with
  | nil => rfl
  | cons hc _ ih =>
    rw [List.map_cons, ih fun d hd => hds d (List.mem_cons_of_mem _ hd),
      RawClass.toDefinition_of_renders hc (hds _ (List.mem_cons_self ..))]

/-! ## Definitions of any classes -/

theorem RawMember.exact_toMember (m : RawMember) {kind : MemberKind}
    (hkind : kind = .field ∨ kind = .ofMethodName m.name) : (m.toMember kind).Exact where
  descriptor c hc := by simpa using (List.mem_filter.1 hc).2
  flags := ⟨Int.natCast_nonneg _, Int.ofNat_le.2 (Access.low16_le m.accessFlags)⟩
  kind := hkind

theorem RawClass.fields_toDefinition (c : RawClass) :
    c.toDefinition.fields = c.fields.map (·.toMember .field) := by
  show List.filter _ (_ ++ _) = _
  rw [List.filter_append, List.filter_eq_self.2, List.filter_eq_nil_iff.2, List.append_nil]
  · simp [RawMember.toMember, MemberKind.ofMethodName_ne_field]
  · simp [RawMember.toMember]

theorem RawClass.methods_toDefinition (c : RawClass) :
    c.toDefinition.methods = c.methods.map fun m => m.toMember (.ofMethodName m.name) := by
  show List.filter _ (_ ++ _) = _
  rw [List.filter_append, List.filter_eq_nil_iff.2, List.filter_eq_self.2, List.nil_append]
  · simp [RawMember.toMember, MemberKind.ofMethodName_ne_field]
  · simp [RawMember.toMember]

/-- The definition that a class stands for is its own class-file form, if it has a name at all. -/
theorem RawClass.exact_toDefinition (c : RawClass) (h : c.toDefinition.name ≠ []) :
    c.toDefinition.Exact where
  ne_nil := h
  name := ClassName.dot_not_mem_slashForm c.name
  superName n hn := by
    rw [toDefinition] at hn
    simp only at hn
    split at hn
    · cases hn
    · next hne =>
      cases hn
      exact ⟨by simpa using hne, ClassName.dot_not_mem_slashForm c.superName⟩
  interfaces n hn := by
    obtain ⟨raw, -, rfl⟩ := List.mem_map.1 hn
    exact ClassName.dot_not_mem_slashForm raw
  flags := ⟨Int.natCast_nonneg _, Int.ofNat_le.2 (Access.low16_le c.accessFlags)⟩
  members m hm := by
    rcases List.mem_append.1 hm with hm | hm
    · obtain ⟨raw, -, rfl⟩ := List.mem_map.1 hm
      exact raw.exact_toMember (.inl rfl)
    · obtain ⟨raw, -, rfl⟩ := List.mem_map.1 hm
      exact raw.exact_toMember (.inr rfl)
  fieldsFirst := by rw [c.fields_toDefinition, c.methods_toDefinition, toDefinition]

end Dalvik

/-! ## Definitions written and read -/

/-- A definition that is its own class-file form can be stored. -/
theorem ClassDefinition.Exact.storable {d : ClassDefinition} (h : d.Exact) : d.Storable where
  name := h.ne_nil
  flags := h.flags
  memberFlags m hm := (h.members m hm).flags
  fieldsFirst :=
    ⟨d.fields, d.methods, h.fieldsFirst, fun _ hm => (mem_fields.1 hm).2,
      fun _ hm => (mem_methods.1 hm).2⟩
  constructors m hm hne := by
    rw [(h.members m hm).kind.resolve_left hne]
    exact MemberKind.ofMethodName_eq_constructor_iff

/-- A definition that is its own class-file form is read again as it is. -/
theorem ClassDefinition.readAgain_of_exact {d : ClassDefinition} (h : d.Exact) :
    d.readAgain = d := by
  have hsuper : d.superName.filter (fun s => !s.isEmpty) = d.superName := by
    cases hs : d.superName with
    | none => rfl
    | some n => exact Option.filter_some_pos (by simpa using (h.superName n hs).1)
  rw [h.storable.readAgain_eq, hsuper]

/-- What is written of a definition that is its own class-file form is read as that definition. -/
theorem ClassFile.read_of_write_exact {d : ClassDefinition} (hd : d.Exact) {b : Bytes}
    (h : ClassFile.write d = .ok b) : ClassFile.read b = .ok d := by
  rw [ClassFile.read_of_write hd.ne_nil h, ClassDefinition.readAgain_of_exact hd]

end JndiScan
