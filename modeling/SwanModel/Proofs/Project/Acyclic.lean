import Mathlib.Data.Set.Finite.List
import SwanModel.Proofs.Project.Dependencies

/-!
# Chains without cycles

Finitely many paths name a file. Where no project leads back to itself, a chain of libraries meets a
new one at each step, and so there is a longest chain.
-/

namespace SwanModel

open Relation

variable {files : Files} {asset library last : ProjectAsset} {levels length : Nat}

/-! ### Short paths -/

theorem length_le_utf8ByteSize (s : String) : s.toList.length ≤ s.utf8ByteSize := by
  rw [← String.ofList_toList (s := s), String.toList_ofList]
  induction s.toList with
  | nil => simp
  | cons c cs ih =>
    have := c.utf8Size_pos
    rw [String.ofList_cons, String.utf8ByteSize_append, String.utf8ByteSize_singleton, List.length_cons]
    omega

theorem finite_texts (limit : Nat) : {s : String | s.utf8ByteSize ≤ limit}.Finite := by
  have code (c : Char) : c.toNat < 0x110000 := by
    have := c.valid
    simp only [UInt32.isValidChar, Nat.isValidChar] at this
    change c.val.toNat < _
    omega
  have : Finite Char := Finite.of_injective (fun c => (⟨c.toNat, code c⟩ : Fin 0x110000)) fun _ _ same =>
    Char.toNat_inj.mp (Fin.mk.inj same)
  have injective : Function.Injective String.toList := fun _ _ => String.toList_inj.mp
  refine ((List.finite_length_le Char limit).preimage injective.injOn).subset fun s short => ?_
  exact Nat.le_trans (length_le_utf8ByteSize s) short

theorem sizes_le_intercalate (parts : List String) :
    parts.length ≤ ("/".intercalate parts).utf8ByteSize + 1 ∧
      ∀ part ∈ parts, part.utf8ByteSize ≤ ("/".intercalate parts).utf8ByteSize := by
  induction parts with
  | nil => simp
  | cons first rest ih =>
    cases rest with
    | nil => simp
    | cons second rest =>
      obtain ⟨count, each⟩ := ih
      have slash : "/".utf8ByteSize = 1 := rfl
      rw [String.intercalate_cons_cons, String.utf8ByteSize_append, String.utf8ByteSize_append, slash]
      refine ⟨?_, List.forall_mem_cons.mpr ⟨by omega, fun part member => ?_⟩⟩
      · rw [List.length_cons]
        omega
      · have := each part member
        omega

namespace FilePath

theorem sizes_le_text (path : FilePath) :
    path.root.utf8ByteSize ≤ path.text.utf8ByteSize ∧ path.parts.length ≤ path.text.utf8ByteSize + 1 ∧
      ∀ part ∈ path.parts, part.utf8ByteSize ≤ path.text.utf8ByteSize := by
  obtain ⟨count, each⟩ := sizes_le_intercalate path.parts
  unfold text
  split
  · next empty =>
    obtain ⟨noRoot, noParts⟩ := Bool.and_eq_true_iff.mp empty
    rw [String.isEmpty_iff.mp noRoot, List.isEmpty_iff.mp noParts]
    simp
  · rw [String.utf8ByteSize_append]
    refine ⟨by omega, by omega, fun part member => ?_⟩
    have := each part member
    omega

/-- Finitely many paths are no longer than a limit. -/
theorem finite_short (limit : Nat) : {path : FilePath | path.text.utf8ByteSize ≤ limit}.Finite := by
  have texts := finite_texts limit
  have := texts.to_subtype
  have rows := (List.finite_length_le {s : String | s.utf8ByteSize ≤ limit} (limit + 1)).image
    (List.map Subtype.val)
  refine ((texts.prod rows).image fun p => FilePath.mk p.1 p.2).subset fun path short => ?_
  obtain ⟨root, count, each⟩ := path.sizes_le_text
  have fits : ∀ part ∈ path.parts, part.utf8ByteSize ≤ limit :=
    fun part member => Nat.le_trans (each part member) short
  refine ⟨(path.root, path.parts), ⟨Nat.le_trans root short, path.parts.attachWith _ fits, ?_, ?_⟩, rfl⟩
  · change (path.parts.attachWith _ fits).length ≤ limit + 1
    rw [List.length_attachWith]
    exact Nat.le_trans count (Nat.succ_le_succ short)
  · exact List.attachWith_map_subtype_val _

end FilePath

theorem Files.short_of_exists {path : FilePath} (there : files.doesExist path = .ok true) :
    path.text.utf8ByteSize ≤ pathLimit := by
  rcases resolved : files.resolve path with e | place
  · have missing : files.find path = .error e := by rw [find, resolved]; rfl
    rw [doesExist, missing] at there
    cases e <;> cases there
  · unfold resolve at resolved
    split at resolved
    · cases resolved
    · split at resolved
      · cases resolved
      · next short => exact Nat.le_of_not_lt short

/-! ### Chains -/

theorem HasLibrary.short (edge : HasLibrary files asset library) :
    ∃ path : FilePath, path.text.utf8ByteSize ≤ Files.pathLimit ∧
      ProjectAsset.ofPath path = library := by
  obtain ⟨found, read, member⟩ := edge
  unfold ProjectAsset.libraries at read
  split at read
  · cases read
    cases member
  · obtain ⟨value, -, read⟩ := ok_of_bind read
    obtain ⟨paths, listed, read⟩ := ok_of_bind read
    obtain ⟨items, -, listed⟩ := ok_of_bind listed
    cases read
    obtain ⟨path, inside, same⟩ := List.mem_map.mp member
    exact ⟨path, Files.short_of_exists ((declaredPaths_ok listed).2 path inside), same⟩

/-- The libraries on a chain are all different where no project leads back to itself. -/
theorem Chain.distinct (chain : Chain files length asset last)
    (acyclic : ∀ library, ReflTransGen (HasLibrary files) asset library →
      ¬ TransGen (HasLibrary files) library library) :
    ∃ met : List ProjectAsset, met.length = length ∧ met.Nodup ∧
      ∀ library ∈ met, TransGen (HasLibrary files) asset library := by
  induction chain with
  | stay => exact ⟨[], rfl, List.nodup_nil, nofun⟩
  | @step _ asset library _ edge _ ih =>
    obtain ⟨met, count, distinct, reached⟩ := ih fun other path => acyclic other (.head edge path)
    refine ⟨library :: met, by rw [List.length_cons, count],
      List.nodup_cons.mpr ⟨fun again => ?_, distinct⟩,
      List.forall_mem_cons.mpr ⟨.single edge, fun other member => .head edge (reached other member)⟩⟩
    exact acyclic library (.single edge) (reached library again)

/-- There is a longest chain of libraries where no project that is reached leads back to itself. -/
theorem exists_longest_chain (acyclic : ∀ library, ReflTransGen (HasLibrary files) asset library →
      ¬ TransGen (HasLibrary files) library library) :
    ∃ longest, (∃ last, Chain files longest asset last) ∧
      ∀ levels, longest < levels → ∀ last, ¬ Chain files levels asset last := by
  classical
  have few := (FilePath.finite_short Files.pathLimit).image ProjectAsset.ofPath
  have ends : ∃ levels, ∀ last, ¬ Chain files levels asset last := by
    refine ⟨few.toFinset.card + 1, fun last chain => ?_⟩
    obtain ⟨met, count, distinct, reached⟩ := chain.distinct acyclic
    have inside : met.toFinset ⊆ few.toFinset := by
      intro library member
      obtain ⟨before, -, edge⟩ := TransGen.tail'_iff.mp (reached library (List.mem_toFinset.mp member))
      exact few.mem_toFinset.mpr edge.short
    have bound := Finset.card_le_card inside
    rw [List.toFinset_card_of_nodup distinct, count] at bound
    omega
  obtain ⟨longest, found⟩ : ∃ longest, Nat.find ends = longest + 1 := by
    refine Nat.exists_eq_succ_of_ne_zero fun none => ?_
    exact Nat.find_spec ends asset (none ▸ .stay asset)
  refine ⟨longest, by simpa using Nat.find_min ends (found ▸ Nat.lt_succ_self longest),
    fun levels more last chain => ?_⟩
  obtain ⟨last', shorter⟩ : ∃ last', Chain files (longest + 1) asset last' := by
    induction levels generalizing last with
    | zero => cases more
    | succ levels ih =>
      by_cases same : longest = levels
      · exact ⟨last, same ▸ chain⟩
      · obtain ⟨before, shorter⟩ := chain.shorten
        exact ih (by omega) before shorter
  exact Nat.find_spec ends last' (found ▸ shorter)

/-- Some number of levels is enough exactly if every project that is reached can be read and none
leads back to itself. -/
theorem exists_bounded_iff : (∃ levels, Bounded files levels asset) ↔
    ∀ library, ReflTransGen (HasLibrary files) asset library →
      library.IsReadable files ∧ ¬ TransGen (HasLibrary files) library library := by
  constructor
  · rintro ⟨levels, bounded⟩ library path
    exact ⟨bounded.readable library path, fun cycle => not_bounded_of_cycle path cycle bounded⟩
  · intro each
    obtain ⟨longest, -, short⟩ := exists_longest_chain fun library path => (each library path).2
    exact ⟨longest + 1, fun library path => (each library path).1, short _ (Nat.lt_succ_self longest)⟩

end SwanModel
