import EdgeRoutes.Proofs.Compile.RouteTable
import EdgeRoutes.Proofs.Manifest.Lossless

/-! What is reported for a manifest of another version.

The text is read in full before its version is looked at. So a manifest of another version is
reported by its version only if every field that the reader knows has a value of a kind that it
knows; otherwise it is reported as a text that cannot be read.
-/

set_option autoImplicit false

namespace EdgeRoutes

open Json Json.Read

def compileText (config : Config) (source : String) : Except CompileError Program := do
  let manifest ← parseManifest source
  (compile config manifest).outcome

namespace Manifest

variable {members : List Member}

/-- Every key stands for a name, and where it is the name of a field, its value is one that this
field can hold. -/
def Fits (members : List Member) : Prop :=
  Source.Named members ∧ ∀ slot ∈ slots, ∀ source ∈ Source.under slot.name members,
    ∃ value, slot.spelling (depthLimit - 1) source value

/-- The object is that of a manifest of this version, whatever its other members are. -/
structure Declares (members : List Member) (version : Nat) : Prop where
  single : ∀ slot ∈ slots, (Source.under slot.name members).length ≤ 1
  given : ∃ numeral, Source.under "version" members = [.number numeral] ∧ numeral.Spells version
  small : version ≤ Nat.pow 2 32 - 1

theorem writtenBy_object_iff {document : Document} {inside : Gap}
    (object : document.content = .object inside members) (manifest : Manifest) :
    manifest.WrittenBy document ↔ Source.Named members ∧ ∀ slot ∈ slots,
      slot.Given (depthLimit - 1) manifest (Source.under slot.name members) := by
  unfold WrittenBy
  rw [object]
  exact Iff.rfl

theorem Declares.version_eq {version : Nat} (declares : Declares members version)
    {manifest : Manifest} (given : ∀ slot ∈ slots,
      slot.Given (depthLimit - 1) manifest (Source.under slot.name members)) :
    manifest.version = version := by
  obtain ⟨numeral, alone, spells⟩ := declares.given
  have here := given (.required "version" (.natural (Nat.pow 2 32 - 1)) (·.version)
    fun manifest version => { manifest with version }) List.mem_cons_self
  change Slot.Gives _ _ _ (Source.under "version" members) at here
  rw [alone] at here
  have same : (manifest.version : Int) = version := here.1.signed.trans spells.signed.symm
  exact Int.ofNat_inj.mp same

theorem exists_default : ∀ slot ∈ slots, slot.name ≠ "version" →
    ∃ value, slot.default? = some value := by
  simp [slots]

theorem Declares.exists_given_iff {version : Nat} (declares : Declares members version) :
    (∃ manifest : Manifest, Source.Named members ∧ ∀ slot ∈ slots,
      slot.Given (depthLimit - 1) manifest (Source.under slot.name members)) ↔ Fits members := by
  constructor
  · rintro ⟨manifest, named, given⟩
    exact ⟨named, fun slot present source there => ⟨_, (given slot present).spells there⟩⟩
  · rintro ⟨named, fits⟩
    have each : ∀ slot ∈ slots, ∃ value,
        slot.Gives (depthLimit - 1) value (Source.under slot.name members) := by
      intro slot present
      have single := declares.single slot present
      have written := fits slot present
      cases found : Source.under slot.name members with
      | nil =>
        -- A field without a member has a default, since the version is there.
        apply exists_default slot present
        intro version
        obtain ⟨numeral, given, _⟩ := declares.given
        rw [version, given] at found
        cases found
      | cons source others =>
        rw [found] at single written
        have alone : others = [] := List.length_eq_zero_iff.mp (Nat.le_zero.mp
          (Nat.le_of_succ_le_succ single))
        rw [alone]
        exact written source List.mem_cons_self
    obtain ⟨manifest, given⟩ := lawful.exists_record {} each
    exact ⟨manifest, named, given⟩

theorem Declares.exists_writtenBy_iff {version : Nat} (declares : Declares members version)
    {document : Document} {inside : Gap} (object : document.content = .object inside members) :
    (∃ manifest : Manifest, manifest.WrittenBy document) ↔ Fits members := by
  rw [← declares.exists_given_iff]
  exact exists_congr (writtenBy_object_iff object)

end Manifest

theorem compileText_unread {config : Config} {document : Document}
    (unwritten : ¬ ∃ manifest : Manifest, manifest.WrittenBy document) :
    ∃ cause position,
      compileText config document.text = .error (.manifestParse cause position) := by
  unfold compileText parseManifest
  cases read : Manifest.parse document.text with
  | error fault => exact ⟨_, _, rfl⟩
  | ok manifest =>
    exact absurd ⟨manifest, (Manifest.parse_eq_ok_iff document manifest).mp read⟩ unwritten

theorem compileText_refused {config : Config} {document : Document} {manifest : Manifest}
    (written : manifest.WrittenBy document)
    (differs : manifest.version ≠ config.manifest.supportedVersion) :
    compileText config document.text =
      .error (.refused (.version manifest.version config.manifest.supportedVersion)) := by
  have read := (parseManifest_eq_ok_iff _ _).mpr
    ((Manifest.parse_eq_ok_iff document manifest).mpr written)
  have refused := routeTable_of_firstRefusal (.version differs)
  unfold compileText compile
  rw [read]
  change ((routeTable config manifest) >>= emit config).outcome = _
  rw [Traced.outcome_bind, refused]
  rfl

/-- A manifest of another version is reported by its version if its members fit the fields of
this release, and otherwise as a text that cannot be read. -/
theorem compileText_incompatible (config : Config) {document : Document} {inside : Gap}
    {members : List Member} {version : Nat}
    (object : document.content = .object inside members)
    (declares : Manifest.Declares members version)
    (differs : version ≠ config.manifest.supportedVersion) :
    (compileText config document.text =
      .error (.refused (.version version config.manifest.supportedVersion)) ↔
        Manifest.Fits members) ∧
    ((∃ cause position,
      compileText config document.text = .error (.manifestParse cause position)) ↔
        ¬ Manifest.Fits members) := by
  have fitting (fits : Manifest.Fits members) : compileText config document.text =
      .error (.refused (.version version config.manifest.supportedVersion)) := by
    obtain ⟨manifest, written⟩ := (declares.exists_writtenBy_iff object).mpr fits
    have same := declares.version_eq ((Manifest.writtenBy_object_iff object manifest).mp written).2
    rw [← same] at differs ⊢
    exact compileText_refused written differs
  have unfit (fits : ¬ Manifest.Fits members) : ∃ cause position,
      compileText config document.text = .error (.manifestParse cause position) :=
    compileText_unread (mt (declares.exists_writtenBy_iff object).mp fits)
  -- There is one report for a text, so each case excludes the other.
  refine ⟨⟨fun refused => ?_, fitting⟩, ⟨?_, unfit⟩⟩
  · by_contra fits
    obtain ⟨cause, position, failed⟩ := unfit fits
    cases refused.symm.trans failed
  · rintro ⟨cause, position, failed⟩ fits
    cases (fitting fits).symm.trans failed

def Manifest.membersOfFour (key : List Part) : List Member := [
  (⟨[], Part.verbatim "version".toList (by simp), []⟩, ⟨[.space], .number (.ofInt 4), []⟩),
  (⟨[.space], key, []⟩, ⟨[.space], .object [] [], []⟩)]

theorem compileText_incompatible_unknown :
    ∃ (document : Document) (inside : Gap) (members : List Member),
      document.content = .object inside members ∧
      document.text = "\x7b\"version\": 4, \"middleware\": \x7b\x7d\x7d" ∧
      Manifest.Declares members 4 ∧ 4 ≠ ({} : Config).manifest.supportedVersion ∧
      Manifest.Fits members ∧
      compileText {} document.text = .error (.refused (.version 4 3)) := by
  let members := Manifest.membersOfFour (Part.verbatim "middleware".toList (by simp))
  let document : Document := ⟨[], .object [] members, []⟩
  have text : document.text = "\x7b\"version\": 4, \"middleware\": \x7b\x7d\x7d" := by decide
  have spells : (Numeral.ofInt 4).Spells 4 := Numeral.spells_ofInt (by decide) (by decide)
  have declares : Manifest.Declares members 4 := {
    single := by decide
    given := ⟨.ofInt 4, rfl, spells⟩
    small := by decide }
  have others : ∀ slot ∈ Manifest.slots, slot.name ≠ "version" →
      (Source.under slot.name members).length = 0 := by decide
  have fits : Manifest.Fits members := by
    refine ⟨List.forall_mem_cons.mpr ⟨⟨"version", by decide⟩,
      List.forall_mem_singleton.mpr ⟨"middleware", by decide⟩⟩, ?_⟩
    intro slot present source there
    by_cases version : slot.name = "version"
    · cases Manifest.lawful.eq_of_name present List.mem_cons_self version
      cases List.mem_singleton.mp there
      exact ⟨(4 : Nat), spells, by decide⟩
    · rw [List.length_eq_zero_iff.mp (others slot present version)] at there
      cases there
  have differs : 4 ≠ ({} : Config).manifest.supportedVersion := by decide
  exact ⟨document, [], members, rfl, text, declares, differs, fits,
    (compileText_incompatible {} rfl declares differs).1.mpr fits⟩

/-- A manifest of version four is not reported by its version if its redirects are an object. -/
theorem compileText_redirects_object :
    ∃ (document : Document) (inside : Gap) (members : List Member),
      document.content = .object inside members ∧
      document.text = "\x7b\"version\": 4, \"redirects\": \x7b\x7d\x7d" ∧
      Manifest.Declares members 4 ∧ ({} : Config).manifest.supportedVersion = 3 ∧
      ∃ cause position,
        compileText {} document.text = .error (.manifestParse cause position) := by
  let members := Manifest.membersOfFour (Part.verbatim "redirects".toList (by simp))
  let document : Document := ⟨[], .object [] members, []⟩
  have text : document.text = "\x7b\"version\": 4, \"redirects\": \x7b\x7d\x7d" := by decide
  have declares : Manifest.Declares members 4 := {
    single := by decide
    given := ⟨.ofInt 4, rfl, Numeral.spells_ofInt (by decide) (by decide)⟩
    small := by decide }
  refine ⟨document, [], members, rfl, text, declares, rfl, compileText_unread ?_⟩
  rw [declares.exists_writtenBy_iff rfl]
  rintro ⟨_, fits⟩
  obtain ⟨value, written⟩ := fits Manifest.slots[3] (List.getElem_mem _) (.object [] [])
    (List.mem_singleton.mpr rfl)
  exact written

end EdgeRoutes
