/-
What the name of an entry tells, said by its ends. A class file and an archive are told by the end
of the name alone, whatever stands before it; a Dalvik file by both ends, and only where the name
leads through no directory. So a directory in front of a name hides Dalvik files and nothing else.
Whatever a conversion gives is told to be a class file.
-/
import JndiScan.Proofs.Dalvik.Suspension
import JndiScan.Proofs.Text.Case
import JndiScan.Proofs.Wildcard

namespace JndiScan

namespace EntryKind

open Wildcard (matchAll_segmentRun_iff matchAll_exact_append_iff matchAll_exact_iff)

variable {name dir : Text}

/-! ## The two patterns -/

theorem matches_classFile_iff :
    name.matchesPattern "**.class" = true ↔ (".class" : Text) <:+ name :=
  Wildcard.matchesPattern_ending_iff (by decide) (by decide)

/-- The name of a Dalvik file: its first and its last part do not overlap, and it is all in one
segment. -/
structure IsDalvikName (name : Text) : Prop where
  start : ("classes" : Text) <+: name
  ending : (".dex" : Text) <:+ name
  length : 11 ≤ name.length
  noSlash : .ofChar '/' ∉ name

theorem isDalvikName_iff : IsDalvikName name ↔
    ("classes" : Text) <+: name ∧ (".dex" : Text) <:+ name ∧ 11 ≤ name.length ∧
      .ofChar '/' ∉ name :=
  ⟨fun ⟨hstart, hend, hlength, hslash⟩ => ⟨hstart, hend, hlength, hslash⟩,
    fun ⟨hstart, hend, hlength, hslash⟩ => ⟨hstart, hend, hlength, hslash⟩⟩

theorem matches_dalvik_iff : name.matchesPattern "classes*.dex" = true ↔ IsDalvikName name := by
  have hitems : Wildcard.ofText ("classes*.dex" : Text) =
      ("classes" : Text).map .exact ++ .segmentRun :: (".dex" : Text).map .exact := by decide
  rw [Text.matchesPattern, hitems, matchAll_exact_append_iff]
  simp only [matchAll_segmentRun_iff, matchAll_exact_iff]
  constructor
  · rintro ⟨_, rfl, run, _, hslash, rfl, rfl⟩
    refine ⟨⟨_, rfl⟩, ⟨"classes" ++ run, List.append_assoc ..⟩, ?_, ?_⟩
    · simp only [List.length_append]
      show 11 ≤ 7 + (run.length + 4)
      omega
    · simp only [List.mem_append, not_or]
      exact ⟨by decide, hslash, by decide⟩
  · rintro ⟨⟨after, rfl⟩, hend, hlength, hslash⟩
    -- the end lies within what follows the start, as the two together are no longer than the name
    have hwithin : (".dex" : Text) <:+ after := by
      refine List.suffix_of_suffix_length_le hend (List.suffix_append _ _) ?_
      rw [List.length_append, show ("classes" : Text).length = 7 from rfl] at hlength
      show 4 ≤ after.length
      omega
    obtain ⟨run, rfl⟩ := hwithin
    exact ⟨_, rfl, run, _, fun hc => hslash (by simp [hc]), rfl, rfl⟩

instance : DecidablePred IsDalvikName := fun _ => decidable_of_iff _ matches_dalvik_iff

/-! ## The ends of names -/

theorem isAscii_of_mem_archiveEndings :
    ∀ ending ∈ archiveEndings, Text.IsAscii ending := by decide

theorem slash_not_mem_archiveEndings : ∀ ending ∈ archiveEndings, .ofChar '/' ∉ ending := by
  decide

theorem any_endsWith_iff :
    archiveEndings.any name.foldCase.endsWith = true ↔
      ∃ ending ∈ archiveEndings, ending <:+ name.lower := by
  rw [List.any_eq_true]
  refine exists_congr fun ending => and_congr_right fun hending => ?_
  rw [Text.endsWith, List.isSuffixOf_iff_suffix,
    Text.suffix_lower_iff (isAscii_of_mem_archiveEndings ending hending)]

/-- The kind of a name by its ends, which are tried in this order. -/
theorem ofName_eq (name : Text) : ofName name =
    if (".class" : Text) <:+ name then classFile
    else if (".aar" : Text) <:+ name.lower then androidLibrary
    else if ∃ ending ∈ archiveEndings, ending <:+ name.lower then archive
    else if IsDalvikName name then dalvik
    else unknown := by
  have hlibrary : name.foldCase.endsWith ".aar" = true ↔ (".aar" : Text) <:+ name.lower := by
    rw [Text.endsWith, List.isSuffixOf_iff_suffix, Text.suffix_lower_iff (by decide)]
  simp only [ofName, matches_classFile_iff, hlibrary, any_endsWith_iff, matches_dalvik_iff]

/-! ## Names below directories -/

/-- An end without slashes is an end of the last segment. -/
theorem suffix_below_iff {ending : Text} (h : .ofChar '/' ∉ ending) :
    ending <:+ dir ++ .ofChar '/' :: name ↔ ending <:+ name := by
  constructor
  · rintro ⟨before, hbefore⟩
    rcases List.append_eq_append_iff.1 hbefore with ⟨more, -, rfl⟩ | ⟨more, -, hmore⟩
    · exact absurd (List.mem_append_right more (List.mem_cons_self ..)) h
    · cases more with
      | nil =>
        rw [List.nil_append] at hmore
        exact absurd (hmore ▸ List.mem_cons_self ..) h
      | cons _ more => exact ⟨more, (List.cons.inj hmore).2.symm⟩
  · exact fun hend => hend.trans ((List.suffix_cons _ _).trans (List.suffix_append _ _))

theorem foldCase_below (dir name : Text) :
    Text.foldCase (dir ++ .ofChar '/' :: name) =
      Text.foldCase dir ++ .ofChar '/' :: Text.foldCase name := by
  rw [Text.foldCase, List.map_append, List.map_cons]
  rfl

/-- So is an end in small letters. -/
theorem suffix_lower_below_iff {ending : Text} (h : .ofChar '/' ∉ ending)
    (hascii : Text.IsAscii ending) :
    ending <:+ Text.lower (dir ++ .ofChar '/' :: name) ↔ ending <:+ name.lower := by
  rw [Text.suffix_lower_iff hascii, Text.suffix_lower_iff hascii, foldCase_below,
    suffix_below_iff h]

theorem not_isDalvikName_below : ¬ IsDalvikName (dir ++ .ofChar '/' :: name) := fun h =>
  h.noSlash (List.mem_append_right dir (List.mem_cons_self ..))

/-- A directory in front of a name hides a Dalvik file, and leaves every other kind. -/
theorem ofName_below (dir name : Text) :
    ofName (dir ++ .ofChar '/' :: name) =
      if ofName name = dalvik then unknown else ofName name := by
  have harchive : (∃ ending ∈ archiveEndings,
      ending <:+ Text.lower (dir ++ .ofChar '/' :: name)) ↔
        ∃ ending ∈ archiveEndings, ending <:+ name.lower := by
    refine exists_congr fun ending => and_congr_right fun hending => ?_
    exact suffix_lower_below_iff (slash_not_mem_archiveEndings ending hending)
      (isAscii_of_mem_archiveEndings ending hending)
  have hclass : (".class" : Text) <:+ dir ++ .ofChar '/' :: name ↔ (".class" : Text) <:+ name :=
    suffix_below_iff (by decide)
  have hlibrary : (".aar" : Text) <:+ Text.lower (dir ++ .ofChar '/' :: name) ↔
      (".aar" : Text) <:+ name.lower :=
    suffix_lower_below_iff (by decide) (by decide)
  rw [ofName_eq, ofName_eq, if_neg not_isDalvikName_below]
  simp only [hclass, hlibrary, harchive]
  split_ifs <;> first | rfl | contradiction

/-! ## Entries of conversions -/

section Conversion

open Dalvik.Conversion (unasked)

variable {D : Decoding} {s s₁ : Session} {e x : Entry}

theorem exists_names_of_start {found : List Text}
    (h : Dalvik.Conversion.start D.readDalvik e s = .ok found s₁) :
    ∃ ds, found = Dalvik.Conversion.names ds := by
  unfold Dalvik.Conversion.start at h
  dsimp only at h
  split at h
  · cases h
  · next ds _ _ =>
    split at h
    · cases h
    · cases h
      exact ⟨ds, rfl⟩

/-- Whatever a Dalvik file gives is told to be a class file. -/
theorem ofName_of_gives {k : Nat} (h : .gives x ∈ (unasked e s).answers D k) :
    ofName x.name = classFile := by
  cases k with
  | zero => cases h
  | succ k =>
    cases hstart : Dalvik.Conversion.start D.readDalvik e s with
    | error trouble s₁ =>
      have hask : (unasked e s).ask D = (.fails trouble, .finished s₁) := by
        have hpull := Decoding.pull_dalvikStart_of_error hstart
        unfold InUse.ask unasked InUse.waiting
        simp only [hpull]
      rw [InUse.answers, hask, InUse.answers_finished, List.mem_cons] at h
      rcases h with h | h
      · cases h
      · cases List.eq_of_mem_replicate h
    | ok found s₁ =>
      obtain ⟨ds, rfl⟩ := exists_names_of_start hstart
      rw [Dalvik.Conversion.answers_of_start hstart, InUse.givesAll_converted,
        List.mem_append] at h
      rcases h with h | h
      · rcases List.mem_append.1 (List.mem_of_mem_take h) with hgiven | hover
        · obtain ⟨y, hy, hgives⟩ := List.mem_map.1 hgiven
          cases hgives
          obtain ⟨name, hname, rfl⟩ := List.mem_map.1 hy
          obtain ⟨d, -, rfl⟩ := Dalvik.Conversion.mem_names.1 hname
          exact Dalvik.Conversion.ofName_fileName d
        · exact absurd (List.mem_singleton.1 hover).symm (Answer.over_ne_gives _ x)
      · cases List.eq_of_mem_replicate h

end Conversion

/-- The kind of an entry is told by the ends of its name: a class file by its exact end, libraries
and archives by an end in small letters, and a Dalvik file by its start and end, which do not
overlap, in a name without slashes. So a directory in front of a name hides Dalvik files, and
changes no other kind; and all that is made of a Dalvik file is class files. -/
theorem ofName_told_by_ends :
    (∀ name : Text, ofName name =
      if (".class" : Text) <:+ name then classFile
      else if (".aar" : Text) <:+ name.lower then androidLibrary
      else if (".jar" : Text) <:+ name.lower ∨ (".war" : Text) <:+ name.lower ∨
        (".zip" : Text) <:+ name.lower ∨ (".apk" : Text) <:+ name.lower then archive
      else if ("classes" : Text) <+: name ∧ (".dex" : Text) <:+ name ∧ 11 ≤ name.length ∧
        .ofChar '/' ∉ name then dalvik
      else unknown) ∧
    (∀ dir name : Text, ofName (dir ++ .ofChar '/' :: name) =
      if ofName name = dalvik then unknown else ofName name) ∧
    ∀ (D : Decoding) (e : Entry) (s : Session) (k : Nat) (x : Entry),
      .gives x ∈ (Dalvik.Conversion.unasked e s).answers D k → ofName x.name = classFile := by
  refine ⟨fun name => ?_, ofName_below, fun D e s k x h => ofName_of_gives h⟩
  have harchive : (∃ ending ∈ archiveEndings, ending <:+ name.lower) ↔
      (".jar" : Text) <:+ name.lower ∨ (".war" : Text) <:+ name.lower ∨
        (".zip" : Text) <:+ name.lower ∨ (".apk" : Text) <:+ name.lower := by
    simp only [archiveEndings, List.mem_cons, List.not_mem_nil, or_false, or_and_right, exists_or,
      exists_eq_left]
  rw [ofName_eq]
  simp only [harchive, isDalvikName_iff]

end EntryKind

end JndiScan
