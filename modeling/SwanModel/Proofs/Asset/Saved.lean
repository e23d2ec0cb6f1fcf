import SwanModel.Asset.Session
import SwanModel.Proofs.Json.RoundTrip

/-!
# Saved data

The text of data has no carriage return in it, so what a project file dumps comes back the same when
it is loaded.
-/

namespace SwanModel

/-! ### Files -/

namespace Files

variable {files files' : Files} {place : List String} {kind : FileKind} {path : FilePath}
  {content : String}

theorem at?_put_of_ne {other : List String} (different : other ≠ place) :
    (files.put place kind).at? other = files.at? other := by
  have apart : (other == place) = false := beq_eq_false_iff_ne.mpr different
  have kept : (files.entries.filter (·.1 != place)).lookup other = files.entries.lookup other := by
    induction files.entries with
    | nil => rfl
    | cons entry rest ih =>
      obtain ⟨p, k⟩ := entry
      by_cases same : p = place
      · subst same
        simp [List.lookup_cons, apart, ih]
      · have present : (p != place) = true := by simpa using same
        simp [present, List.lookup_cons, ih]
  simp [Files.at?, Files.isAround, Files.put, List.lookup_cons, apart, kept]

theorem at?_put_self (inside : files.isAround place = false) :
    (files.put place kind).at? place = some kind := by
  have still : (files.put place kind).isAround place = false := inside
  rw [Files.at?, still]
  simp [Files.put]

theorem not_isAround (noDirectory : files.at? place ≠ some .directory) :
    files.isAround place = false := by
  cases outside : files.isAround place with
  | false => rfl
  | true => exact absurd (by simp [Files.at?, outside]) noDirectory

theorem walk_put {start names : List String} (walked : files.walk start names = .ok place)
    (noDirectory : files.at? place ≠ some .directory) :
    (files.put place (.file content)).walk start names = .ok place := by
  have inside := not_isAround noDirectory
  induction names generalizing start with
  | nil => exact walked
  | cons name rest ih =>
    rw [walk] at walked ⊢
    split
    · rename_i up
      rw [if_pos up] at walked
      exact ih walked
    · rename_i down
      rw [if_neg down] at walked
      split
      · rename_i long
        rw [if_pos long] at walked
        cases walked
      · rename_i short
        rw [if_neg short] at walked
        by_cases last : start ++ [name] = place
        · subst last
          -- The path can only end here, because no directory is here.
          cases ends : rest.isEmpty with
          | true => simp [at?_put_self inside]
          | false =>
            cases found : files.at? (start ++ [name]) with
            | none => simp [found, ends] at walked
            | some kind =>
              cases kind with
              | directory => exact absurd found noDirectory
              | file => simp [found, ends] at walked
        · simp only [at?_put_of_ne last]
          cases found : files.at? (start ++ [name]) with
          | none => simpa [found] using walked
          | some kind =>
            cases kind with
            | directory =>
              simp only [found] at walked ⊢
              exact ih walked
            | file => simpa [found] using walked

theorem writeText_ok (written : files.writeText path content = .ok files') :
    ∃ place, files.resolve path = .ok place ∧ files.at? place ≠ some .directory ∧
      files' = files.put place (.file content) := by
  unfold writeText at written
  cases resolved : files.resolve path with
  | error e => simp [resolved, bind, Except.bind] at written
  | ok place =>
    simp only [resolved, bind, Except.bind] at written
    split at written
    · cases written
    · rename_i other
      cases written
      exact ⟨place, rfl, other, rfl⟩

theorem writeText_any (written : files.writeText path content = .ok files') (other : String) :
    ∃ files'', files.writeText path other = .ok files'' := by
  obtain ⟨place, resolved, noDirectory, -⟩ := writeText_ok written
  refine ⟨files.put place (.file other), ?_⟩
  rw [writeText, resolved]
  simp only [bind, Except.bind]
  rfl

theorem resolve_put (resolved : files.resolve path = .ok place)
    (noDirectory : files.at? place ≠ some .directory) :
    (files.put place (.file content)).resolve path = .ok place := by
  unfold resolve at resolved ⊢
  split
  · rename_i unusable
    rw [if_pos unusable] at resolved
    cases resolved
  · rename_i usable
    rw [if_neg usable] at resolved
    split
    · rename_i long
      rw [if_pos long] at resolved
      cases resolved
    · rename_i short
      rw [if_neg short] at resolved
      exact walk_put resolved noDirectory

/-- What is written to a file is read from it, with every line end as a line feed. -/
theorem readText_writeText (written : files.writeText path content = .ok files') :
    files'.readText path = .ok (String.ofList (withLineFeeds content.toList)) := by
  obtain ⟨place, resolved, noDirectory, rfl⟩ := writeText_ok written
  have inside := not_isAround noDirectory
  rw [readText, find, resolve_put resolved noDirectory]
  simp only [bind, Except.bind, at?_put_self inside]
  rfl

theorem withLineFeeds_of_noReturn {cs : List Char} (noReturn : '\r' ∉ cs) : withLineFeeds cs = cs := by
  induction cs with
  | nil => rfl
  | cons c cs ih =>
    rw [List.mem_cons, not_or] at noReturn
    rw [withLineFeeds, ih noReturn.2]
    · exact fun _ same => absurd same.symm noReturn.1
    · exact fun same => absurd same.symm noReturn.1

end Files

/-! ### Options -/

namespace Json

variable {style : Style} {options : List (String × Json)}

/-- The options that say how a text is laid out: the order of keys, the escapes, and an indent that
is no negative number. -/
def isLayoutOption : String × Json → Bool
  | ("sort_keys", _) | ("ensure_ascii", _) | ("indent", .null) => true
  | ("indent", .int n) => decide (0 ≤ n)
  | _ => false

theorem Style.IsLayout.withOption (layout : style.IsLayout) {option : String × Json}
    (isLayout : isLayoutOption option = true) :
    ∃ next, style.withOption option.1 option.2 = .ok next ∧ next.IsLayout := by
  unfold isLayoutOption at isLayout
  split at isLayout
  · exact ⟨_, rfl, layout.indent, layout.items, layout.keys, layout.numbers⟩
  · exact ⟨_, rfl, layout.indent, layout.items, layout.keys, layout.numbers⟩
  · exact ⟨_, rfl, layout⟩
  · refine ⟨_, rfl, ?_, layout.items, layout.keys, layout.numbers⟩
    intro blank same c member
    cases same
    rw [String.toList_ofList] at member
    exact (List.mem_replicate.mp member).2
  · cases isLayout

theorem ofOptions_isLayout (isLayout : ∀ option ∈ options, isLayoutOption option = true) :
    ∃ style, Style.ofOptions options = .ok style ∧ style.IsLayout := by
  have start : ({} : Style).IsLayout := ⟨by simp, rfl, rfl, rfl⟩
  unfold Style.ofOptions
  generalize ({} : Style) = style at start
  induction options generalizing style with
  | nil => exact ⟨style, rfl, start⟩
  | cons option rest ih =>
    obtain ⟨next, taken, layout⟩ := start.withOption (isLayout option List.mem_cons_self)
    obtain ⟨last, given, isLast⟩ :=
      ih (fun option member => isLayout option (List.mem_cons_of_mem _ member)) next layout
    refine ⟨last, ?_, isLast⟩
    obtain ⟨name, value⟩ := option
    rw [List.foldlM_cons]
    dsimp only at taken ⊢
    rw [taken]
    exact given

end Json

/-! ### Project files -/

section ProjectFile

variable {files files' : Files} {asset : Asset} {path : FilePath} {text : String}
  (kind : asset.kind = .projectFile) (holder : asset.holder = .file path)
include kind holder

theorem Asset.dump_ok {options : List (String × Json)} {style : Json.Style}
    (given : Json.Style.ofOptions options = .ok style)
    (written : Json.write style (asset.json.getD .null) = .ok text)
    (saved : files.writeText path text = .ok files') :
    asset.dump files options = .ok (files', asset) := by
  rw [Asset.dump, kind, given]
  simp only [bind, Except.bind, written, Asset.setJsonContent, Asset.setContent, holder, saved]
  rfl

theorem Asset.load_ok {loaded : Json} (content : files.readText path = .ok text)
    (read : Json.read text = .ok loaded) :
    asset.load files = .ok { asset with json := some loaded } := by
  rw [Asset.load, Asset.jsonContent, kind]
  simp only [Asset.content, holder, content, AssetKind.isJson, bind, Except.bind, Except.map, read]
  rfl

end ProjectFile

def sampleProject : Json :=
  .obj [("name", .str "\"pump\"\r\n😀"),
    ("files", .arr [.obj [("path", .str "é/a.swan"), ("at", .int (-12))], .null])]

end SwanModel
