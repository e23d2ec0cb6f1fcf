import SwanModel.Proofs.Language.Steps

/-! # Names convert -/

namespace SwanModel

open SwanModel.Convert

variable {known : Rule → ParseTree → Bool} {tree : ParseTree}

theorem identifier_gives (s : String) (isName : Bool) :
    Gives (make (.name .identifier) [.text s, .absent, .absent, .truth isName]) (Fits .identifier) :=
  .pure (.construct (by simp) rfl
    (.cons (.text s) (.cons (.list .nil) (.cons .absent (.cons (.flag isName) .nil)))))

theorem luid_gives {s : String} (filled : s.isEmpty = false) :
    Gives (make (.name .luid) [.text s]) (Fits .luid) := by
  have built : ∃ s', (Form.name .luid).build [.text s] = .ok (.node (.name .luid) [.text s']) := by
    simp only [Form.build, Form.fill, fillLuid, partAt, List.getD_cons_zero]
    split
    · rename_i empty
      simp [String.toList_eq_nil_iff.mp empty] at filled
    · exact ⟨_, rfl⟩
    · exact ⟨s, rfl⟩
  obtain ⟨s', built⟩ := built
  rw [make, built]
  exact .pure (.construct (by simp) rfl (.cons (.text s') .nil))

theorem ofTree_text (isText : tree.isText = true) : Fits .text (Term.ofTree tree) := by
  cases tree with
  | text s => exact .text s
  | _ => cases isText

theorem ofTree_flag (isFlag : tree.isFlag = true) : Fits .flag (Term.ofTree tree) := by
  cases tree with
  | truth b => exact .flag b
  | _ => cases isFlag

theorem ofTree_numeral (isNumeral : tree.isNumeral = true) :
    Fits (.either .text .number) (Term.ofTree tree) := by
  cases tree with
  | text s => exact .left (.text s)
  | number n => exact .right (.number n)
  | _ => cases isNumeral

theorem ofTree_texts {texts : List ParseTree} (all : texts.all ParseTree.isText = true) :
    FitsEach .text (texts.map Term.ofTree) := by
  apply FitsEach.of_forall
  intro item inside
  obtain ⟨text, member, rfl⟩ := List.mem_map.mp inside
  exact ofTree_text (List.all_eq_true.mp all text member)

theorem identifier_name (name : tree.isName = true) :
    Gives (Convert.identifier tree) (Fits .identifier) := by
  unfold ParseTree.isName at name
  split at name
  · rename_i s pragmas
    simp only [Convert.identifier, ParseTree.members, Convert.ofExcept, pure_bind, Term.ofTree]
    exact make_gives (by simp) rfl rfl
      (.cons (.text s) (.cons (.list (ofTree_texts name)) (.cons .absent (.cons (.flag false) .nil))))
  · cases name

theorem locatedText_gives (isText : tree.isLocated = true) :
    Gives (locatedText tree) fun t => ∃ s, t = .text s := by
  unfold ParseTree.isLocated at isText
  split at isText
  · exact .pure ⟨_, rfl⟩
  · cases isText

theorem nameIdentifier_gives (isText : tree.isLocated = true) :
    Gives (nameIdentifier tree) (Fits .identifier) := by
  have shortened : Gives (nameText tree) fun t => ∃ s, t = .text s := by
    refine (locatedText_gives isText).bind fun _ ⟨s, same⟩ => ?_
    subst same
    exact .pure ⟨_, rfl⟩
  refine shortened.bind fun _ ⟨s, same⟩ => ?_
  subst same
  exact identifier_gives s true

theorem luid_located (isLuid : tree.isLuid = true) : Gives (Convert.luid tree) (Fits .luid) := by
  unfold ParseTree.isLuid at isLuid
  split at isLuid
  · exact luid_gives (by simpa using isLuid)
  · cases isLuid

theorem protectedText_gives {markups : List String} (isText : tree.isProtected markups = true) :
    Gives (protectedText tree) fun t => Fits .text t := by
  unfold ParseTree.isProtected at isText
  split at isText
  · exact .pure (.text _)
  · cases isText

theorem markup_gives {markups : List String} (isText : tree.isProtected markups = true) :
    Gives (markup tree) fun t => ∃ s, t = .text s ∧ s ∉ markups := by
  unfold ParseTree.isProtected at isText
  split at isText
  · exact .pure ⟨_, rfl, by simpa using isText⟩
  · cases isText

theorem protectedItem_gives (isText : tree.isProtected [] = true) :
    Gives (protectedItem tree) (Fits .verbatim) :=
  (protectedText_gives isText).bind fun _ text =>
    (markup_gives isText).bind fun _ ⟨s, same, _⟩ => by
      subst same
      exact make_gives (by simp) rfl rfl (.cons text (.cons (.text s) .nil))

theorem tagged_other {tags : List String} (tagged : tree.isTaggedOther tags = true) :
    ∃ tag items fields, tree = .node (some tag) items fields ∧ tag ∉ tags := by
  unfold ParseTree.isTaggedOther at tagged
  split at tagged
  · exact ⟨_, _, _, rfl, by simpa using tagged⟩
  · cases tagged

theorem tagged_one {tag : String} (tagged : tree.isTagged [tag] = true) :
    ∃ items fields, tree = .node (some tag) items fields := by
  unfold ParseTree.isTagged at tagged
  split at tagged
  · rename_i other items fields
    obtain rfl : other = tag := by simpa using tagged
    exact ⟨items, fields, rfl⟩
  · cases tagged

theorem lookup_of_tagged {α : Type} {table : List (String × α)}
    (tagged : tree.isTagged (table.map (·.1)) = true) :
    ∃ tag items fields a, tree = .node (some tag) items fields ∧ table.lookup tag = some a ∧
      (tag, a) ∈ table := by
  unfold ParseTree.isTagged at tagged
  split at tagged
  · rename_i tag items fields
    obtain ⟨entry, inside, rfl⟩ : ∃ entry ∈ table, entry.1 = tag := by simpa using tagged
    have present : (table.lookup entry.1).isSome = true := by
      rw [List.lookup_isSome_iff]
      exact ⟨entry, inside, by simp⟩
    obtain ⟨a, found⟩ := Option.isSome_iff_exists.mp present
    obtain ⟨_, _, listed, _⟩ := List.lookup_eq_some_iff.mp found
    exact ⟨entry.1, items, fields, a, rfl, found, by simp [listed]⟩
  · cases tagged

theorem constantOf_gives {table : List (String × Constant)} {family : String}
    (families : ∀ entry ∈ table, entry.2.family = family)
    (tagged : tree.isTagged (table.map (·.1)) = true) :
    Gives (constantOf table tree) (Fits (.constant family)) := by
  obtain ⟨tag, items, fields, c, rfl, found, listed⟩ := lookup_of_tagged tagged
  have same : c.family = family := families (tag, c) listed
  simp only [constantOf, ↓tag_bind, found]
  exact .pure (same ▸ .constant c)

theorem textOrAbsent_gives {shape : TermShape} {f : Term → Conversion Term} {g : Term → Conversion Term}
    {post : Term → Prop} (isText : tree.isTextOrAbsent = true)
    (converted : ∀ s : String, s.isEmpty = false → Gives (f (.text s)) (Fits shape))
    (rest : ∀ t, Fits (.maybe (.either .text shape)) t → Gives (g t) post) :
    Gives (if (Term.ofTree tree).isTruthy then f (Term.ofTree tree) >>=
      g else pure (Term.ofTree tree) >>= g) post := by
  cases tree with
  | absent => exact rest _ (.left .absent)
  | text s =>
    split
    · rename_i filled
      exact (converted s (by simpa [Term.ofTree, Term.isTruthy] using filled)).bind fun t fits =>
        rest t (.right (.right fits))
    · exact rest _ (.right (.left (.text s)))
  | _ => cases isText

theorem identification_gives (isState : tree.isIdentification = true) :
    Gives (identification tree) (Fits (.equationPart .identification)) := by
  unfold ParseTree.isIdentification at isState
  split at isState
  · rename_i id luid
    rw [Bool.and_eq_true] at isState
    simp only [Convert.identification]
    refine textOrAbsent_gives isState.1 (fun s _ => identifier_gives s false) fun _ id => ?_
    refine textOrAbsent_gives (f := fun t => make (.name .luid) [t]) isState.2
      (fun s => luid_gives) fun _ luid => ?_
    exact make_gives (by simp) rfl rfl (.cons luid (.cons id .nil))
  · cases isState

variable {self : Convert} (parts : Converts self known)
include parts

theorem path_gives (accepted : HasOne known tree Rule.path.shapes) :
    Gives (Convert.path tree) (Fits .path) := by
  obtain ⟨first, items, rfl, names⟩ := TreeShape.accepts_filled accepted.only
  have all : ∀ item ∈ first :: items, Gives (Convert.identifier item) (Fits .identifier) :=
    fun item inside => parts.now (names item inside)
  simp only [Convert.path, Convert.each, ParseTree.members, Convert.ofExcept, pure_bind,
    List.mapM_cons, bind_assoc]
  refine (all first (by simp)).bind fun head isHead => ?_
  refine (Gives.mapM fun item inside => all item (by simp [inside])).bind fun tail isTail => ?_
  exact make_gives (by simp) rfl rfl (.cons (.left (.filled isHead isTail)) .nil)

theorem pathOrText_gives (accepted : HasOne known tree Rule.pathOrText.shapes) :
    Gives (Convert.pathOrText tree) (Fits .path) := by
  rcases accepted with accepted | accepted | ⟨⟨⟩⟩
  · obtain ⟨_, _, rfl, isPath, _, ⟨⟩⟩ := TreeShape.accepts_case accepted
    simp only [Convert.pathOrText, ↓tag_bind, itemAt_first, pure_bind]
    exact parts.now isPath
  · obtain ⟨tag, _, _, rfl, different, isText, ⟨⟩⟩ := TreeShape.accepts_other accepted
    simp only [Convert.pathOrText, ↓tag_bind, item_node, pure_bind]
    split
    · contradiction
    · exact (protectedText_gives isText).bind fun _ text =>
        make_gives (by simp) rfl rfl (.cons (.right text) .nil)

end SwanModel
