/-
The order in which the system lists directories decides nothing. Walks from a path meet the same in
every listing, and come to the files below a directory in an order that their names tell.
-/
import JndiScan.Proofs.Files.Usable
import JndiScan.Proofs.Walk.DepthLimit
import JndiScan.Proofs.Walk.Relisting
import JndiScan.Proofs.Walk.RootOrder
import JndiScan.Proofs.Walk.Roots

namespace JndiScan.Walk

open Decoding (related_reordered)

variable {D : Decoding} {l : Limits} {session session' : Session}

theorem related_occurrencesAt (h : session.Reordered session') (wanted : Option Nat) (path : Text)
    (tally : Tally) :
    (occurrencesAt D l wanted path tally session).Related Session.Reordered
      (occurrencesAt D l wanted path tally session') := by
  unfold occurrencesAt start
  rw [roots_eq h.host]
  cases roots session.host path with
  | error fault => exact ⟨rfl, rfl, rfl, h⟩
  | ok roots =>
    exact related_occurrences (related_reordered D) wanted
      ⟨h, rfl, rfl, rfl, List.forall_mem_nil _⟩

/-- A walk from a path meets the same however the directories are listed: within the same limits it
gives the same occurrences in the same order, and leaves the same diagnostics, the same number of
entries seen and the same word on whether the result is complete. Below a directory it visits the
files in order: those of the directory by their names, and then those below each of its directories, by
the names of these and each as a whole. It goes through the beginning of this list, and to its end
unless it is left, a fault ends it or the budget is exceeded. -/
theorem occurrencesAt_reordered (h : session.Reordered session') (D : Decoding) (l : Limits)
    (wanted : Option Nat) (path : Text) (tally : Tally) :
    let r := occurrencesAt D l wanted path tally session
    r.Related Session.Reordered (occurrencesAt D l wanted path tally session') ∧
      ∀ place es, session.host.resolve path = .ok place →
        session.host.find (Path.ofNames place) = .ok (.directory es) →
        ∃ paths s, InOrder session.host place es paths ∧ start path tally session = .ok s ∧
          r = occurrences D.decoder l wanted s ∧
          rootsVisited D.decoder l wanted s <+: paths.map .ofPath ∧
          (wanted = none → r.fault = none → r.tally.entriesSeen ≤ l.budget →
            rootsVisited D.decoder l wanted s = paths.map .ofPath) := by
  refine ⟨related_occurrencesAt h wanted path tally, fun place es hresolve hfind => ?_⟩
  let calls := session.host.nesting.listing
  let s : State Session Entry Position :=
    { world := session, tally, roots := rootsIn session.host calls place es }
  obtain ⟨paths, horder, hstand⟩ : ∃ paths, InOrder session.host place es paths ∧
      StandFor (rootsIn session.host calls place es) (paths.map .ofPath) := by
    have hlisted := h.host.find (Path.ofNames place)
    rw [hfind] at hlisted
    generalize session'.host.find (Path.ofNames place) = found at hlisted
    cases hlisted with
    | ok ht => exact exists_inOrder ht calls place rfl
  have hstart : start path tally session = .ok s := by
    rw [start, roots_of_directory hresolve hfind]
    rfl
  have hr : occurrencesAt D l wanted path tally session = occurrences D.decoder l wanted s := by
    rw [occurrencesAt, hstart]
  have houter : ∀ e ∈ paths.map Entry.ofPath, (D.decoder.placeOf e).depth = 0 := by
    intro e he
    obtain ⟨p, -, rfl⟩ := List.mem_map.1 he
    rfl
  obtain ⟨hbegins, hall⟩ := rootsVisited_inTurn (s := s) D.nesting l wanted hstand houter
  refine ⟨paths, s, horder, hstart, hr, hbegins, ?_⟩
  rw [hr]
  exact hall

/-! ## Two listings -/

/-- A file system that holds one directory, which is listed in such an order. -/
def holding (entries : List (Text × FileTree)) : Session where
  host := { root := .directory [("app", .directory entries)] }
  scratch := ["conversion"]

/-- Two files. -/
def oneLibrary : List (Text × FileTree) := [("a.txt", .file []), ("b.txt", .file [])]

/-- A class file, and behind it a directory with them. -/
def oneListing : List (Text × FileTree) :=
  [("C.class", .file bareClassOctets), ("lib", .directory oneLibrary)]

/-- The same with both directories listed the other way round. -/
def otherListing : List (Text × FileTree) :=
  [("lib", .directory [("b.txt", .file []), ("a.txt", .file [])]),
    ("C.class", .file bareClassOctets)]

theorem reordered_listings : (holding oneListing).Reordered (holding otherListing) := by
  have hlib : FileTree.Reordered (.directory oneLibrary)
      (.directory [("b.txt", .file []), ("a.txt", .file [])]) := by
    refine .directory_of_mem (by decide) (by decide) fun e he e' he' _ => ?_
    simp only [oneLibrary, List.mem_cons, List.not_mem_nil, or_false] at he he'
    obtain rfl | rfl := he <;> obtain rfl | rfl := he' <;> exact .file []
  have happ : FileTree.Reordered (.directory oneListing) (.directory otherListing) := by
    refine .directory_of_mem (by decide) (by decide) fun e he e' he' hname => ?_
    simp only [oneListing, otherListing, List.mem_cons, List.not_mem_nil, or_false] at he he'
    obtain rfl | rfl := he <;> obtain rfl | rfl := he'
    · exact absurd hname (by decide)
    · exact .file _
    · exact hlib
    · exact absurd hname (by decide)
  refine ⟨⟨.directory_of_mem (by decide) (by decide) fun e he e' he' _ => ?_, rfl, rfl, rfl⟩,
    rfl, rfl⟩
  cases List.mem_singleton.1 he
  cases List.mem_singleton.1 he'
  exact happ

/-- The files in order. -/
def onePaths : List Text := ["/app/C.class", "/app/lib/a.txt", "/app/lib/b.txt"]

theorem rootsIn_oneListing : rootsIn (holding oneListing).host 970 ["app"] oneListing =
    (onePaths.map .ofPath).map .entry := by
  have hlisted : ∀ calls place es, rootsIn (holding oneListing).host (calls + 1) place es =
      ordered (listedEntries (holding oneListing).host calls place es) := fun _ _ _ => rfl
  have hinner : Text.sortBy (fun e => Path.listed e.1) oneLibrary = oneLibrary :=
    List.mergeSort_of_pairwise (by decide +kernel)
  have hbelow : rootsIn (holding oneListing).host 969 ["app", "lib"] oneLibrary =
      [.entry (.ofPath "/app/lib/a.txt"), .entry (.ofPath "/app/lib/b.txt")] := by
    rw [hlisted 968, ordered_listedEntries, hinner]
    rfl
  have houter : Text.sortBy (fun e => Path.listed e.1) oneListing = oneListing :=
    List.mergeSort_of_pairwise (by decide +kernel)
  have hfiles : filesOf (holding oneListing).host ["app"] oneListing = ["C.class"] := by
    decide +kernel
  have hdirectories : directoriesOf oneListing = [(("lib" : Text), oneLibrary)] := by
    have hname : Path.listed "lib" = "lib" := by decide +kernel
    show [(Path.listed "lib", oneLibrary)] = _
    rw [hname]
  rw [hlisted 969, ordered_listedEntries, houter, hfiles, hdirectories, List.flatMap_singleton]
  show [Root.entry (.ofPath "/app/C.class")] ++
    rootsIn (holding oneListing).host 969 ["app", "lib"] oneLibrary = _
  rw [hbelow]
  rfl

/-- What the files unfold to. -/
def oneTrees : List Tree :=
  [.leaf { bareClass with place := { root := "/app/C.class" } },
    .other { root := "/app/lib/a.txt" }, .other { root := "/app/lib/b.txt" }]

theorem unfoldsAll_oneListing (D : Decoding) : ∃ session',
    UnfoldsAll D.decoder (holding oneListing) (onePaths.map .ofPath) oneTrees session' := by
  have husable : Host.Usable ["app", "C.class"] := by decide
  have hclass : (holding oneListing).host.read "/app/C.class" = .ok bareClassOctets :=
    Host.read_of_at? husable rfl
  have hread : ClassFile.read bareClassOctets = .ok bareClass.definition := by decide +kernel
  have hkind : EntryKind.ofName (Entry.ofPath "/app/C.class").name = .classFile := by
    decide +kernel
  have hfound : Unfolds D.decoder (holding oneListing) (.ofPath "/app/C.class") (.leaf _) _ :=
    .leaf (Decoding.decode_of_read hkind rfl (need_ofPath hclass) hread)
  have hother : ∀ (path : Text) (s : Session),
      EntryKind.ofName (Entry.ofPath path).name = .unknown →
      Unfolds D.decoder s (.ofPath path) (.other { root := path }) s := fun path s hunknown => by
    have hdecode : D.decode (.ofPath path) s = .ok (.unrecognized (Entry.ofPath path).name) s := by
      rw [Decoding.decode_of_kind hunknown]
      rfl
    exact .other hdecode
  have hfirst := hother "/app/lib/a.txt" { holding oneListing with
    opened := [{ root := "/app/C.class" }] } (by decide +kernel)
  have hsecond := hother "/app/lib/b.txt" { holding oneListing with
    opened := [{ root := "/app/C.class" }] } (by decide +kernel)
  exact ⟨_, .cons hfound (.cons hfirst (.cons hsecond .nil))⟩

/-- From the directory both are walked alike, without a fault, and all files are come to in
order. -/
theorem occurrencesAt_reordered_listings :
    let D : Decoding := { maxEntrySize := defaultEntrySize }
    let tally : Tally := { console := { verbose := false } }
    let r := occurrencesAt D {} none "/app" tally (holding oneListing)
    let r' := occurrencesAt D {} none "/app" tally (holding otherListing)
    (holding oneListing).Reordered (holding otherListing) ∧ r'.value = r.value ∧
      r'.tally.diagnostics = r.tally.diagnostics ∧
      r'.tally.entriesSeen = r.tally.entriesSeen ∧ r'.tally.incomplete = r.tally.incomplete ∧
      r.fault = none ∧ r.tally.entriesSeen = 3 ∧
      ∃ paths s, InOrder (holding oneListing).host ["app"] oneListing paths ∧
        start "/app" tally (holding oneListing) = .ok s ∧
        rootsVisited D.decoder {} none s = paths.map .ofPath := by
  intro D tally r r'
  have husable : Host.Usable ["app"] := by decide
  have hat : (holding oneListing).host.root.at? ["app"] = some (.directory oneListing) := rfl
  have hlink : Host.NoLink (holding oneListing).host [] ["app"] := by
    intro way hway target
    rcases List.prefix_cons_iff.1 hway with rfl | ⟨rest, rfl, hrest⟩
    · exact nofun
    · cases List.prefix_nil.1 hrest
      exact nofun
  have hfind : (holding oneListing).host.find (Path.ofNames ["app"]) =
      .ok (.directory oneListing) := by
    have hroot : (holding oneListing).host.root.at? [] =
      some (.directory [("app", .directory oneListing)]) := rfl
    have hlocate := husable.locate hroot (hlink _ (List.prefix_refl _))
    exact Host.bind_eq_ok_iff.2 ⟨_, hlocate, rfl⟩
  obtain ⟨hrelated, horder⟩ := occurrencesAt_reordered reordered_listings D {} none "/app" tally
  have hresolve : (holding oneListing).host.resolve "/app" = .ok ["app"] := husable.resolve hlink
  obtain ⟨paths, s, hpaths, hs, hr, -, hall⟩ := horder ["app"] oneListing hresolve hfind
  have hstart : start "/app" tally (holding oneListing) =
      .ok { world := holding oneListing, tally, roots := (onePaths.map .ofPath).map .entry } := by
    rw [start, roots_of_directory hresolve hfind,
      show (holding oneListing).host.nesting.listing = 970 from rfl, rootsIn_oneListing]
    rfl
  obtain rfl := Except.ok.inj (hstart.symm.trans hs)
  obtain ⟨session', hunfolds⟩ := unfoldsAll_oneListing D
  obtain ⟨hfault, -, hseen, -⟩ := occurrences_eq_trace (m := 16) (n := 1000000) D.decoder tally
    hunfolds (by decide) (by decide)
  rw [← show r = _ from hr] at hfault hseen
  have hvisited := hall rfl hfault (hseen.trans_le (by decide))
  refine ⟨reordered_listings, hrelated.value, ?_, ?_, ?_, hfault, hseen, paths, _, hpaths, hs,
    hvisited⟩ <;> rw [hrelated.tally]

end JndiScan.Walk
