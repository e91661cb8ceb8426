/-
A run that is given a file of rules. Octets that are a text end in a signature, or in an error that
the run tells before it ends, as long as the reader of documents calls malformed what it cannot
read, and the values of the entry can be shown. Octets that are no text never end in a signature
when the reader reads all of a stream, and as many of them as it reads first break the run off.
-/
import JndiScan.Proofs.CommandLine.Steps
import JndiScan.Proofs.Files.Usable
import JndiScan.Proofs.Signature.Fields
import JndiScan.Proofs.Text.Stream
import JndiScan.Proofs.Yaml.Meaning

namespace JndiScan

open Signature (rulesKey)
open Text (IsUtf8)

namespace Rules

variable {readYaml : Yaml.Reader} {octets : Bytes}

/-- The entry that the octets of a rules document hold. -/
def Holds (readYaml : Yaml.Reader) (octets : Bytes) (entry : Value) : Prop :=
  ∃ v, readYaml (.ofOctets octets) = .ok v ∧ ofDocument rulesKey v = .ok entry

/-- The octets of a rules document hold an entry, or they are told to be wrong, or there is a fault
of the document that no error of the rules tells. -/
theorem ofOctets_cases (readYaml : Yaml.Reader) (path : Text) (octets : Bytes) :
    (∃ entry, Holds readYaml octets entry ∧ ofOctets readYaml rulesKey path octets = .ok entry) ∨
    (∃ error, ofOctets readYaml rulesKey path octets = .error (.rules error)) ∨
    ∃ fault, readYaml (.ofOctets octets) = .error fault ∧ fault ≠ .malformed ∧
      ofOctets readYaml rulesKey path octets = .error (.document fault) := by
  rw [ofOctets]
  cases hread : readYaml (.ofOctets octets) with
  | ok v =>
    dsimp only
    cases hentry : ofDocument rulesKey v with
    | ok entry => exact .inl ⟨entry, ⟨v, hread, hentry⟩, rfl⟩
    | error error => exact .inr (.inl ⟨error, rfl⟩)
  | error fault =>
    cases fault with
    | malformed => exact .inr (.inl ⟨_, rfl⟩)
    | _ => exact .inr (.inr ⟨_, rfl, nofun, rfl⟩)

theorem ofOctets_of_encoding (path : Text) {e : Text.Utf8.Fault}
    (h : readYaml (.ofOctets octets) = .error (.encoding e)) :
    ofOctets readYaml rulesKey path octets = .error (.document (.encoding e)) := by
  rw [ofOctets, h]

/-- An entry tells a signature, or it is told to be wrong, or a value in it cannot be shown. -/
theorem signature_cases (entry : Value) :
    (∃ s, signature [(rulesKey, entry)] = .ok s) ∨
    (∃ error, signature [(rulesKey, entry)] = .error (.rules error)) ∨
    ∃ fault, Signature.ofEntry entry = .error (.unshown fault) ∧
      signature [(rulesKey, entry)] = .error (.unshown fault) := by
  rw [Signature.signature_of_entry]
  cases Signature.ofEntry entry with
  | ok s => exact .inl ⟨s, rfl⟩
  | error error =>
    cases error with
    | unshown fault => exact .inr (.inr ⟨fault, rfl, rfl⟩)
    | _ => exact .inr (.inl ⟨_, rfl⟩)

end Rules

namespace CommandLine.Run

variable {env : Environment} {options : Options} {arguments : List Text} {session : Session}
variable {path file : Text} {octets : Bytes}

section Given

variable {host : Host} (hrules : given? options.rules = some file)
include hrules

theorem rulesOf_of_fault {fault : Rules.LoadFault}
    (h : Rules.loadOne env.readYaml host rulesKey file = .error fault) :
    rulesOf env host options = .error fault := by
  simp only [rulesOf, hrules, Rules.load, List.mapM_cons, h]
  rfl

/-- The rules of a file with their signature. -/
theorem rulesOf_of_entry {entry : Value}
    (h : Rules.loadOne env.readYaml host rulesKey file = .ok entry) :
    rulesOf env host options =
      (Rules.signature [(rulesKey, entry)]).map fun s => ([(rulesKey, entry)], s) := by
  simp only [rulesOf, hrules, Rules.load, List.mapM_cons, List.mapM_nil, h]
  show (Rules.signature [(rulesKey, entry)] >>= fun s => .ok ([(rulesKey, entry)], s)) = _
  cases Rules.signature [(rulesKey, entry)] <;> rfl

end Given

/-- The run tells that its rules are wrong, and ends as one that could not begin. -/
structure Refused (env : Environment) (options : Options) (arguments : List Text)
    (session : Session) (error : Rules.RuleError) : Prop where
  code : (run env arguments session).code = .ok notBegun
  lines : (run env arguments session).state.console.lines.toList =
    (opening options session).console.lines.toList ++
      ["[!] " ++ ("rules invalid error=" ++ error.message)]

theorem refused_of_rulesOf (hoptions : Options.ofArguments arguments = .ok options)
    (hpath : given? options.path = some path) {error : Rules.RuleError}
    (h : rulesOf env session.host options = .error (.rules error)) :
    Refused env options arguments session error := by
  have hrun : run env arguments session =
      { code := .ok notBegun
        state := { opening options session with
          console := (opening options session).console.warn
            ("rules invalid error=" ++ error.message) } } := by
    rw [run_eq]
    simp only [withArguments, hoptions, withOptions, hpath, work_bind_apply, tell_apply,
      loadRules_apply, h]
    rfl
  constructor
  · rw [hrun]
  · rw [hrun]
    exact Console.toList_warn _ _

/-- Any other fault of the rules breaks the run off. -/
theorem code_of_rulesOf (hoptions : Options.ofArguments arguments = .ok options)
    (hpath : given? options.path = some path) {fault : Rules.LoadFault}
    (h : rulesOf env session.host options = .error fault) (hfault : ∀ error, fault ≠ .rules error) :
    (run env arguments session).code = .error (.rules fault) := by
  rw [run_eq]
  simp only [withArguments, hoptions, withOptions, hpath, work_bind_apply, tell_apply,
    loadRules_apply, h]
  cases fault with
  | rules error => exact absurd rfl (hfault error)
  | _ => rfl

/-! ## Octets of a rules file -/

/-- The rules of a run and their signature are there. -/
def Begun (env : Environment) (host : Host) (options : Options) : Prop :=
  ∃ rules signature, rulesOf env host options = .ok (rules, signature)

/-- How the rules in octets turn out. -/
theorem rulesOf_cases (hrules : given? options.rules = some file) {host : Host}
    (hread : host.read file = .ok octets) :
    (Begun env host options ∧ ∃ v, env.readYaml (.ofOctets octets) = .ok v) ∨
    (∃ error, rulesOf env host options = .error (.rules error)) ∨
    (∃ fault, env.readYaml (.ofOctets octets) = .error fault ∧ fault ≠ .malformed ∧
      rulesOf env host options = .error (.document fault)) ∨
    ∃ entry fault, Rules.Holds env.readYaml octets entry ∧
      Signature.ofEntry entry = .error (.unshown fault) ∧
      rulesOf env host options = .error (.unshown fault) := by
  have hload : Rules.loadOne env.readYaml host rulesKey file =
      Rules.ofOctets env.readYaml rulesKey file octets := by
    rw [Rules.loadOne, hread]
  obtain ⟨entry, hholds, hentry⟩ | ⟨error, herror⟩ | ⟨fault, hfault, hmalformed, hoctets⟩ :=
    Rules.ofOctets_cases env.readYaml file octets
  · rw [Begun, rulesOf_of_entry hrules (hload.trans hentry)]
    obtain ⟨s, hs⟩ | ⟨error, hs⟩ | ⟨fault, hunshown, hs⟩ := Rules.signature_cases entry <;> rw [hs]
    · obtain ⟨v, hv, -⟩ := hholds
      exact .inl ⟨⟨_, s, rfl⟩, v, hv⟩
    · exact .inr (.inl ⟨error, rfl⟩)
    · exact .inr (.inr (.inr ⟨entry, fault, hholds, hunshown, rfl⟩))
  · exact .inr (.inl ⟨error, rulesOf_of_fault hrules (hload.trans herror)⟩)
  · exact .inr (.inr (.inl
      ⟨fault, hfault, hmalformed, rulesOf_of_fault hrules (hload.trans hoctets)⟩))

theorem isUtf8_of_begun (hrules : given? options.rules = some file) {host : Host}
    (hread : host.read file = .ok octets) {ahead : Nat}
    (hreads : Yaml.ReadsStream env.readYaml ahead) (h : Begun env host options) :
    IsUtf8 octets := by
  obtain ⟨rules, signature, hfound⟩ := h
  obtain ⟨-, v, hv⟩ | ⟨error, herror⟩ | ⟨fault, -, -, hbreaks⟩ | ⟨entry, fault, -, -, hbreaks⟩ :=
    rulesOf_cases hrules hread
  · exact Text.Stream.stop_eq_none_iff.1 (hreads.whole hv)
  · exact nomatch hfound.symm.trans herror
  · exact nomatch hfound.symm.trans hbreaks
  · exact nomatch hfound.symm.trans hbreaks

/-- A file of rules, and what a run makes of it. When it cannot be read the run says so and ends.
When reading its octets as a document has no other faults than that the text is malformed and that
the octets are none, then the run has its rules, or tells what is wrong with them, or it breaks off:
over a value in the entry that cannot be shown, because a number in it is too long or because it is
nested too deep, or because the octets are no text. A reader that reads all of a stream never gives
rules for octets that are no text, and when it reads more than these first, they always break the
run off. -/
theorem rules_file_ends (hoptions : Options.ofArguments arguments = .ok options)
    (hpath : given? options.path = some path) (hrules : given? options.rules = some file) :
    (∀ error, session.host.read file = .error (.file error) →
      Refused env options arguments session (.unreadable rulesKey file error)) ∧
    ∀ octets, session.host.read file = .ok octets →
      (Yaml.Signals env.readYaml (.ofOctets octets) →
        Begun env session.host options ∨
        (∃ error, Refused env options arguments session error) ∨
        (∃ entry w calls fault, Rules.Holds env.readYaml octets entry ∧
          Signature.Shows entry w calls ∧ w.showFault? calls = some fault ∧
          (run env arguments session).code = .error (.rules (.unshown fault))) ∨
        (¬ IsUtf8 octets ∧ ∃ e,
          (run env arguments session).code = .error (.rules (.document (.encoding e))))) ∧
      ∀ ahead, Yaml.ReadsStream env.readYaml ahead → ¬ IsUtf8 octets →
        ¬ Begun env session.host options ∧
        (octets.length < ahead → ∃ e,
          (run env arguments session).code = .error (.rules (.document (.encoding e)))) := by
  refine ⟨fun error hread => ?_,
    fun octets hread => ⟨fun hsignals => ?_, fun ahead hreads hutf8 => ?_⟩⟩
  · refine refused_of_rulesOf hoptions hpath (rulesOf_of_fault hrules ?_)
    rw [Rules.loadOne, hread]
  · obtain ⟨hbegun, -⟩ | ⟨error, herror⟩ | ⟨fault, hfault, hmalformed, hbreaks⟩ |
        ⟨entry, fault, hholds, hunshown, hbreaks⟩ := rulesOf_cases hrules hread
    · exact .inl hbegun
    · exact .inr (.inl ⟨error, refused_of_rulesOf hoptions hpath herror⟩)
    · obtain rfl | ⟨e, hstop, rfl⟩ := hsignals fault hfault
      · exact absurd rfl hmalformed
      · refine .inr (.inr (.inr ⟨fun hutf8 => ?_, e, code_of_rulesOf hoptions hpath hbreaks nofun⟩))
        rw [Text.Stream.stop_eq_none_iff.2 hutf8] at hstop
        cases hstop
    · obtain ⟨w, calls, hshows, hw⟩ := Signature.exists_of_ofEntry_unshown hunshown
      exact .inr (.inr (.inl ⟨entry, w, calls, fault, hholds, hshows, hw,
        code_of_rulesOf hoptions hpath hbreaks nofun⟩))
  · refine ⟨fun hbegun => hutf8 (isUtf8_of_begun hrules hread hreads hbegun), fun hshort => ?_⟩
    obtain ⟨e, hstop⟩ := Option.ne_none_iff_exists'.1 (mt Text.Stream.stop_eq_none_iff.1 hutf8)
    have hread' : env.readYaml (.ofOctets octets) = .error (.encoding e) :=
      hreads.first hstop (Nat.lt_of_le_of_lt (Text.Stream.length_text_le octets) hshort)
    refine ⟨e, code_of_rulesOf hoptions hpath (rulesOf_of_fault hrules ?_) nofun⟩
    rw [Rules.loadOne, hread]
    exact Rules.ofOctets_of_encoding file hread'

/-! ## Two rules files -/

/-- An environment with the usual scanner and the usual readers. -/
def fileEnvironment : Environment :=
  { dalvikVersion := "4.1.4", timestamp := "2026-01-01T00:00:00+00:00" }

/-- Arguments that give a file of rules. -/
def fileArguments : List Text := [("/R" : Text), "--rules", "/R/rules.yml"]

/-- What these arguments ask for. -/
def fileOptions : Options := { path := some ("/R" : Text), rules := some ("/R/rules.yml" : Text) }

/-- A directory that holds nothing but that file. -/
def besideRules (octets : Bytes) : Session where
  host := { root := .directory [("R", .directory [("rules.yml", .file octets)])] }
  scratch := ["scratch"]

theorem ofArguments_fileArguments : Options.ofArguments fileArguments = .ok fileOptions := by rfl

theorem read_besideRules (octets : Bytes) :
    (besideRules octets).host.read "/R/rules.yml" = .ok octets := by
  have husable : Host.Usable ["R", "rules.yml"] := by decide
  exact husable.read rfl rfl

/-- A document that ends within a sequence. -/
def openRules : Bytes := ("log4shell: [unclosed\n" : Text).toUtf8

/-- Whether reading octets ends in a fault can be computed. -/
def faultOf? (octets : Bytes) : Option Yaml.Fault :=
  match Yaml.read (.ofOctets octets) with
  | .ok _ => none
  | .error fault => some fault

theorem read_of_faultOf? {fault : Yaml.Fault} (h : faultOf? octets = some fault) :
    Yaml.read (.ofOctets octets) = .error fault := by
  rw [faultOf?] at h
  split at h
  · cases h
  · next hread =>
    cases h
    exact hread

theorem read_openRules : Yaml.read (.ofOctets openRules) = .error .malformed :=
  read_of_faultOf? (by decide +kernel)

theorem isUtf8_openRules : IsUtf8 openRules := by
  have hsome : (Text.ofUtf8 .strict openRules).toOption.isSome = true := by decide +kernel
  cases h : Text.ofUtf8 .strict openRules with
  | ok t => exact ⟨t, h⟩
  | error fault =>
    rw [h] at hsome
    cases hsome

/-- A text that is malformed gives rules or is refused, and that is all. -/
theorem rules_file_ends_malformed :
    Yaml.Signals Yaml.read (.ofOctets openRules) ∧ IsUtf8 openRules ∧
      (Begun fileEnvironment (besideRules openRules).host fileOptions ∨
        ∃ error,
          Refused fileEnvironment fileOptions fileArguments (besideRules openRules) error) := by
  have hsignals : Yaml.Signals Yaml.read (.ofOctets openRules) := fun fault hfault =>
    .inl (Except.error.inj (hfault.symm.trans read_openRules))
  obtain ⟨-, hread⟩ := @rules_file_ends fileEnvironment _ _ (besideRules openRules) _ _
    ofArguments_fileArguments rfl rfl
  refine ⟨hsignals, isUtf8_openRules, ?_⟩
  obtain hbegun | hrefused | ⟨entry, w, calls, fault, ⟨v, hv, -⟩, -⟩ | ⟨hutf8, -⟩ :=
    (hread openRules (read_besideRules openRules)).1 hsignals
  · exact .inl hbegun
  · exact .inr hrefused
  · exact nomatch hv.symm.trans read_openRules
  · exact absurd isUtf8_openRules hutf8

/-- A file that holds the one octet FF is no valid file of rules, and the run breaks off over it
instead of telling so. -/
theorem undecodable_rules_break_off :
    let o := run fileEnvironment fileArguments (besideRules [0xFF])
    o.code = .error (.rules (.document (.encoding ⟨0xFF, 0, 1, .invalidStart⟩))) ∧
      ¬ Begun fileEnvironment (besideRules [0xFF]).host fileOptions ∧
      ∀ error, ¬ Refused fileEnvironment fileOptions fileArguments (besideRules [0xFF]) error := by
  have hfault : Yaml.read (.ofOctets [0xFF]) = .error (.encoding ⟨0xFF, 0, 1, .invalidStart⟩) :=
    read_of_faultOf? (by decide +kernel)
  have hread := read_besideRules [0xFF]
  have hrules : given? fileOptions.rules = some ("/R/rules.yml" : Text) := rfl
  have hcode : (run fileEnvironment fileArguments (besideRules [0xFF])).code =
      .error (.rules (.document (.encoding ⟨0xFF, 0, 1, .invalidStart⟩))) := by
    refine code_of_rulesOf ofArguments_fileArguments rfl (rulesOf_of_fault hrules ?_) nofun
    rw [Rules.loadOne, hread]
    exact Rules.ofOctets_of_encoding _ hfault
  refine ⟨hcode, fun hbegun => ?_, fun error hrefused => nomatch hcode.symm.trans hrefused.code⟩
  have hutf8 := isUtf8_of_begun hrules hread Yaml.readsStream_read hbegun
  exact nomatch (Yaml.stop_of_read_eq_encoding hfault).symm.trans
    (Text.Stream.stop_eq_none_iff.2 hutf8)

end CommandLine.Run

end JndiScan
