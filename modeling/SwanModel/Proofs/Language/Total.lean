import Mathlib.Logic.Relation
import SwanModel.Proofs.Language.Declarations
import SwanModel.Proofs.Language.Texts
import SwanModel.Proofs.Store.Force

/-!
# The language is handled as a whole

A tree that the grammar describes is converted; what comes out can be put into a store, asked for
its body, and printed.
-/

namespace SwanModel

open SwanModel.Convert

variable {rule : Rule} {tree : ParseTree} {t : Term} {reader : Reader} {w : Workspace}

/-! ### Conversion -/

theorem convertUpTo_gives {n m : Nat} (described : ParseTree.describedUpTo n rule tree = true)
    (enough : n ≤ m) : Gives (convertUpTo m rule tree) (Yields rule tree) := by
  -- The induction is on the levels of the description; the converter may have more levels. What it
  -- converts by itself has one level less, and what it leaves to another has as many as before.
  induction n generalizing m rule tree with
  | zero => cases described
  | succ n ih =>
    cases m with
    | zero => cases enough
    | succ m =>
      have fewer : n ≤ m := Nat.le_of_succ_le_succ enough
      have parts : Converts (convertUpTo m) (ParseTree.describedUpTo n) :=
        { later := fun known => ih known fewer
          now := fun known => ih known (Nat.le_succ_of_le fewer) }
      exact step_gives parts (hasOne_of_any described)

/-- There are levels enough for every tree that the grammar describes. -/
theorem height_le_levelsFor (reader : Reader) (tree : ParseTree) :
    tree.height ≤ levelsFor reader tree := by
  unfold levelsFor
  omega

theorem convert_gives (described : tree.describedBy rule = true) :
    Gives (convert rule tree) (Yields rule tree) := by
  intro reader s
  rw [convert, perform_bind_ok (perform_read reader s)]
  exact convertUpTo_gives described (height_le_levelsFor reader tree) reader s

theorem hasPart_body {tag : Option String} {items : List ParseTree} {fields : List (String × ParseTree)}
    {scope : ParseTree} (found : fields.lookup "OpBody" = some scope) :
    HasPart (.userOperator, .node tag items fields) (.scope, scope) := by
  intro known accepted
  have shapes : Rule.userOperator.shapes =
      [.record (("OpBody", .construct .scope) :: Grammar.heading)] := rfl
  simp only [shapes, List.any_cons, List.any_nil, Bool.or_false, TreeShape.accepts,
    TreeShape.acceptsFields, found, Option.any_some, Bool.and_eq_true] at accepted
  exact accepted.1

theorem operatorBody_gives (described : tree.describedBy .userOperator = true) :
    ∃ scope, HasPart (.userOperator, tree) (.scope, scope) ∧
      Gives (convert .operatorBody tree) (Yields .scope scope) := by
  have enough (reader : Reader) := height_le_levelsFor reader tree
  unfold ParseTree.describedBy at described
  generalize tree.height = height at described enough
  cases height with
  | zero => cases described
  | succ height =>
    have accepted := (hasOne_of_any described).only
    obtain ⟨tag, items, fields, rfl, found, isScope, -⟩ := TreeShape.accepts_record accepted
    rename_i scope
    refine ⟨scope, hasPart_body found, fun reader s => ?_⟩
    obtain ⟨levels, same⟩ : ∃ levels, levelsFor reader (.node tag items fields) = levels + 1 := ⟨_, rfl⟩
    have fewer : height ≤ levels := by
      have := enough reader
      omega
    have body :
        Gives (operatorBody (convertUpTo levels) (.node tag items fields)) (Yields .scope scope) := by
      simp only [operatorBody, field_node found, pure_bind]
      exact convertUpTo_gives isScope fewer
    rw [convert, perform_bind_ok (perform_read reader s), same]
    exact body reader s

def TermShape.isNeeded : TermShape → Bool
  | .absent => false
  | .either left right => left.isNeeded && right.isNeeded
  | _ => true

theorem Fits.ne_absent {shape : TermShape} (fits : Fits shape t) (needed : shape.isNeeded = true) :
    t ≠ .absent := by
  rintro rfl
  induction shape with
  | either left right ihLeft ihRight =>
    simp only [TermShape.isNeeded, Bool.and_eq_true] at needed
    rcases fits.or with fits | fits
    · exact ihLeft needed.1 fits
    · exact ihRight needed.2 fits
  | absent => cases needed
  | _ => cases fits

theorem Rule.result_isNeeded (rule : Rule) : rule.result.isNeeded = true := by cases rule <;> rfl

/-- Only an empty definition gives nothing. -/
theorem Yields.absent_iff (yields : Yields rule tree t) :
    t = .absent ↔ rule = .scope ∧ tree.isEmptyDefinition = true := by
  by_cases scope : rule = .scope
  · subst scope
    simp only [Yields] at yields
    split at yields
    · rename_i empty
      simp [yields, empty]
    · rename_i filled
      simp [yields.ne_absent rfl, filled]
  · have present : t ≠ .absent := by
      unfold Yields at yields
      split at yields
      · contradiction
      · obtain ⟨p, _, rfl⟩ := yields
        simp [SignatureParts.operator]
      · rcases yields with fits | ⟨_, _, p, _, rfl⟩
        · exact fits.ne_absent rfl
        · simp [SignatureParts.operator]
      · exact yields.ne_absent (Rule.result_isNeeded rule)
    simp [present, scope]

/-! ### Operators -/

mutual

theorem Fits.isSettled {shape : TermShape} {t : Term} (fits : Fits shape t) : t.isSettled = true :=
  match fits with
  | .absent | .text _ | .flag _ | .number _ | .constant _ | .pragma _ => rfl
  | .construct _ _ fits => fits.areSettled
  | .list fits => fits.areSettled
  | .filled head tail => by simp [Term.isSettled, Term.areSettled, head.isSettled, tail.areSettled]
  | .left fits | .right fits => fits.isSettled

theorem FitsAll.areSettled {shapes : List TermShape} {ts : List Term} (fits : FitsAll shapes ts) :
    Term.areSettled ts = true :=
  match fits with
  | .cons head tail => by simp [Term.areSettled, head.isSettled, tail.areSettled]
  | .nil => rfl

theorem FitsEach.areSettled {shape : TermShape} {ts : List Term} (fits : FitsEach shape ts) :
    Term.areSettled ts = true :=
  match fits with
  | .nil => rfl
  | .cons head tail => by simp [Term.areSettled, head.isSettled, tail.areSettled]

end

namespace Convert.SignatureParts.WellFormed

variable {p : SignatureParts} (whole : p.WellFormed)
include whole

theorem operator_fits {body : Term} (isBody : Fits (.maybe .scope) body) :
    Fits (.decl .operator) (p.operator body) := by
  obtain ⟨isId, isNode, areInputs, areOutputs, areSizes, areConstraints, isGeneral, areMarks, ⟨⟩⟩ :=
    whole
  refine .construct (by simp) rfl ?_
  exact .cons isId (.cons isNode
    (.cons areInputs (.cons areOutputs (.cons isBody (.cons areSizes
      (.cons areConstraints (.cons isGeneral (.cons areMarks (.cons (.flag false) .nil)))))))))

theorem operator_isLoadable (tree : ParseTree) : (p.operator (.raw tree)).isLoadable = true := by
  have loadable := FitsAll.areLoadable whole
  simp only [SignatureParts.terms, Term.areLoadable, Bool.and_eq_true] at loadable
  simp [SignatureParts.operator, Term.isLoadable, Term.areLoadable, loadable, Form.adoptions]

theorem others_areSettled (body : Term) {parts : List Term}
    (same : p.operator body = .node (.decl .operator) parts) :
    Term.areSettled (parts.eraseIdx Operator.bodyIndex) = true := by
  have settled := FitsAll.areSettled whole
  obtain rfl := (Term.node.inj same).2
  simp only [SignatureParts.terms, Term.areSettled, Bool.and_eq_true] at settled
  simp [Operator.bodyIndex, Term.areSettled, Term.isSettled, settled]

theorem view_pending {store : Store} {id : Nat}
    (held : Held .none store (p.operator (.raw tree)) (.ref id)) :
    store.view (.ref id) = .ok (p.operator (.pending id)) := by
  have settled := FitsAll.areSettled whole
  simp only [SignatureParts.terms, Term.areSettled, Bool.and_eq_true] at settled
  rw [held.view_node (by simp [settled, Term.isSettled])]
  simp only [List.map_cons, List.map_nil, Term.shownIn_of_settled, settled]
  rfl

/-- The text of an operator waits for its body. -/
theorem print_pending (id : Nat) : (p.operator (.pending id)).print = .error (.pending id) := by
  have parts := FitsAll.parts whole whole.legible
  obtain ⟨_, _, _, _, _, _, _, _, ⟨⟩⟩ := parts
  have heading :
    Succeeds (signatureLayout p.id.printed p.isNode.printed p.inputs.printed p.outputs.printed
      p.sizes.printed p.constraints.printed p.specialization.printed p.pragmas.printed) := inferInstance
  obtain ⟨text, made⟩ := heading.ok
  rw [SignatureParts.operator, Term.print_node, Form.text, if_neg (by decide)]
  simp only [Form.layout, List.map_cons, List.map_nil, DeclForm.layout, made, ok_bind]
  rfl

end Convert.SignatureParts.WellFormed

/-! ### Terms in a store -/

/-- A term is put into a store, asked for its body, and printed; its text is the same before and
after, and what is then there has a shape. -/
def Handled (shape : TermShape) (t : Term) (reader : Reader) (w : Workspace) : Prop :=
  ∃ id whole text w₁ w₂, perform (Work.load t) reader w = (.ok (.ref id), w₁) ∧
    perform (Work.force id) reader w₁ = (.ok (), w₂) ∧ w₂.store.view (.ref id) = .ok whole ∧
      Fits shape whole ∧
    perform (Work.print (.ref id)) reader w₁ = (.ok text, w₂) ∧
      perform (Work.print (.ref id)) reader w₂ = (.ok text, w₂)

theorem print_held (reader : Reader) {shape : TermShape} {slot : Slot} {text : String}
    (held : Held .none w.store t slot) (fits : Fits shape t) (printed : t.print = .ok text) :
    perform (Work.print slot) reader w = (.ok text, w) := by
  refine observe_ok ?_
  rw [held.view fits.isSettled]
  exact printed

theorem Held.eq_ref {store : Store} {form : Form} {parts : List Term} {slot : Slot}
    (held : Held .none store (.node form parts) slot) : ∃ id, slot = .ref id := by
  cases held with
  | plain plain => cases plain
  | node => exact ⟨_, rfl⟩

/-- A well-formed construct is handled. -/
theorem Fits.handled {forms : List Form} (fits : Fits (.construct forms) t) (reader : Reader)
    (w : Workspace) : Handled (.construct forms) t reader w := by
  obtain ⟨slot, w₁, loaded, lasts, -⟩ := (load_spec t reader w).ok fits.isLoadable
  have held := lasts (.refl w₁.store)
  obtain ⟨text, printed⟩ := fits.print
  have shown := held.view fits.isSettled
  have prints := print_held reader held fits printed
  cases fits with
  | construct listed known parts =>
    obtain ⟨id, rfl⟩ := held.eq_ref
    have forced := force_settled reader held parts.areSettled
    exact ⟨id, _, text, w₁, w₁, loaded, forced, shown, .construct listed known parts, prints, prints⟩

theorem IsOperator.handled (isOperator : IsOperator tree t)
    (described : tree.describedBy .userOperator = true) (reader : Reader) (w : Workspace) :
    Handled (.decl .operator) t reader w := by
  obtain ⟨p, whole, rfl⟩ := isOperator
  obtain ⟨slot, w₁, loaded, lasts, -⟩ := (load_spec _ reader w).ok (whole.operator_isLoadable tree)
  have held := lasts (.refl w₁.store)
  obtain ⟨id, rfl⟩ := held.eq_ref
  obtain ⟨scope, -, gives⟩ := operatorBody_gives described
  obtain ⟨body, converted, yields⟩ := gives reader w₁.reading
  have isBody := yields.maybe_scope
  have possible : body = .absent ∨ body.isAdoptable = true :=
    isBody.or.imp Fits.eq_absent fun isScope => isScope.isAdoptable rfl
  obtain ⟨w₂, forced, after⟩ :=
    force_ok held rfl (whole.others_areSettled _ rfl) converted isBody.isLoadable possible
  have after : Held .none w₂.store (p.operator body) (.ref id) := after
  have fits := whole.operator_fits isBody
  obtain ⟨text, printed⟩ := fits.print
  have shown := after.view fits.isSettled
  refine ⟨id, _, text, w₁, w₂, loaded, forced, shown, fits, ?_, print_held reader after fits printed⟩
  -- The first question for the text fails with the operator whose body it waits for.
  refine observe_pending ?_ (Held.weight_pos held rfl) forced ?_
  · rw [whole.view_pending held]
    exact whole.print_pending id
  · rw [shown]
    exact printed

theorem Handled.weaken {shape other : TermShape} (handled : Handled shape t reader w)
    (wider : ∀ u, Fits shape u → Fits other u) : Handled other t reader w := by
  obtain ⟨id, whole, text, w₁, w₂, loaded, forced, shown, fits, prints⟩ := handled
  exact ⟨id, whole, text, w₁, w₂, loaded, forced, shown, wider whole fits, prints⟩

/-- What is inside a tree of the language is of the language. -/
theorem described_inside {whole part : Rule × ParseTree}
    (inside : Relation.ReflTransGen HasPart whole part)
    (described : whole.2.describedBy whole.1 = true) : part.2.describedBy part.1 = true := by
  induction inside with
  | refl => exact described
  | tail _ step ih => exact step.described ih

/-! ### Indices

The language bounds the digits of an index. A longer row of digits is a decimal number too, but it
is refused where it is converted. -/

/-- Whether a text is a row of decimal digits, however long. -/
def isDecimal (s : String) : Bool := !s.isEmpty && s.toList.all Char.isDigit

def transposition (sizes : List ParseTree) (marks indices : List String) (place : ParseTree) :
    ParseTree :=
  let list : ParseTree := .node (some "TSList") [.list (indices.map .text), place] []
  let primitive : ParseTree := .node (some "Transpose") [list] []
  .node none []
    [("CallSize", .list sizes), ("CallPragmas", .list (marks.map .text)),
      ("CallOp", .node (some "OPrefixPrimitive") [primitive] [])]

section Refused

variable {sizes : List ParseTree} {marks indices : List String} {place : ParseTree} {self : Convert}
  {s : Reading}

theorem transposeIndex_decimal {index : String} (decimal : isDecimal index = true) :
    transposeIndex (.text index) =
      if index.length > Numeral.digitLimit then throw .tooManyDigits
      else pure (.number (Numeral.natOfDigits index.toList)) := by
  obtain ⟨filled, digits⟩ : index.isEmpty = false ∧ index.toList.all Char.isDigit = true := by
    simpa [isDecimal] using decimal
  rw [transposeIndex, intOfText_digits filled digits]
  split <;> rfl

/-- The first index that is too long is refused. -/
theorem indices_refused (decimal : ∀ index ∈ indices, isDecimal index = true)
    (long : ∃ index ∈ indices, index.length > Numeral.digitLimit) :
    perform ((indices.map .text).mapM transposeIndex) reader s = (.error .tooManyDigits, s) := by
  induction indices with
  | nil => simp at long
  | cons index indices ih =>
    rw [List.map_cons, List.mapM_cons, transposeIndex_decimal (decimal index (by simp))]
    split
    · rfl
    · rename_i short
      have later : ∃ index ∈ indices, index.length > Numeral.digitLimit := by simpa [short] using long
      exact perform_bind_error (ih (fun other inside => decimal other (by simp [inside])) later) _

theorem operator_refused {given : Term}
    (sized : perform (each (exprOrText self) (.list sizes)) reader s = (.ok given, s))
    (decimal : ∀ index ∈ indices, isDecimal index = true)
    (long : ∃ index ∈ indices, index.length > Numeral.digitLimit) :
    perform (operator self (transposition sizes marks indices place)) reader s =
      (.error .tooManyDigits, s) := by
  have areTexts :
      (TreeShape.list Grammar.text).accepts (fun _ _ => true) (.list (marks.map .text)) = true := by
    simp [TreeShape.accepts, Grammar.text, ParseTree.isText]
  obtain ⟨_, marked, -⟩ := pragmas_give areTexts reader s
  refine (perform_bind_ok sized _).trans ((perform_bind_ok marked _).trans ?_)
  exact perform_bind_error (perform_bind_error (indices_refused decimal long) _) _

theorem transposition_refused (areSizes : ∀ size ∈ sizes, size.describedBy .exprOrText = true)
    (decimal : ∀ index ∈ indices, isDecimal index = true)
    (long : ∃ index ∈ indices, index.length > Numeral.digitLimit) :
    perform (convert .operator (transposition sizes marks indices place)) reader s =
      (.error .tooManyDigits, s) := by
  rw [convert, perform_bind_ok (perform_read reader s)]
  obtain ⟨levels, same⟩ : ∃ levels,
      levelsFor reader (transposition sizes marks indices place) = levels + 1 := ⟨_, rfl⟩
  have sized (size : ParseTree) (inside : size ∈ sizes) :
      Gives (exprOrText (convertUpTo levels) size) (Fits .expr) := by
    have enough : size.height ≤ levels + 1 := by
      have low := ParseTree.height_le_heights inside
      have high := height_le_levelsFor reader (transposition sizes marks indices place)
      simp only [transposition, ParseTree.height, ParseTree.fieldHeights] at high
      rw [← same]
      simp only [transposition]
      omega
    exact convertUpTo_gives (areSizes size inside) enough
  obtain ⟨given, converted, -⟩ := (Gives.mapM sized) reader s
  have listed : perform (each (exprOrText (convertUpTo levels)) (.list sizes)) reader s =
      (.ok (.list given), s) :=
    perform_bind_ok converted _
  rw [same]
  exact operator_refused listed decimal long

end Refused

/-- A declaration of the language is converted and handled. Every part of it is converted too, and
only an empty definition gives nothing; so is the body of every operator in it. A transposition with
decimal indices of which one has too many digits is refused where it is converted. -/
theorem language_is_handled (reader : Reader) (w : Workspace) :
    (∀ tree, ParseTree.describedBy .declaration tree = true →
      (∃ t, perform (Work.ofConversion (convert .declaration tree)) reader w = (.ok t, w) ∧
        Handled (.either .declaration (.decl .operator)) t reader w) ∧
      (∀ part, Relation.ReflTransGen HasPart (.declaration, tree) part →
        ∃ t, perform (convert part.1 part.2) reader w.reading = (.ok t, w.reading) ∧
          (t = .absent ↔ part.1 = .scope ∧ part.2.isEmptyDefinition = true)) ∧
      ∀ operator, Relation.ReflTransGen HasPart (.declaration, tree) (.userOperator, operator) →
        ∃ scope body, HasPart (.userOperator, operator) (.scope, scope) ∧
          perform (convert .operatorBody operator) reader w.reading = (.ok body, w.reading) ∧
          (body = .absent ↔ scope.isEmptyDefinition = true)) ∧
    ∀ sizes marks indices place, (∀ size ∈ sizes, ParseTree.describedBy .exprOrText size = true) →
      (∀ index ∈ indices, isDecimal index = true) →
        (∃ index ∈ indices, index.length > Numeral.digitLimit) →
      perform (convert .operator (transposition sizes marks indices place)) reader w.reading =
        (.error .tooManyDigits, w.reading) := by
  refine ⟨fun tree described => ⟨?_, fun part inside => ?_, fun operator inside => ?_⟩,
    fun _ _ _ _ areSizes decimal long => transposition_refused areSizes decimal long⟩
  · obtain ⟨t, converted, yields⟩ := convert_gives described reader w.reading
    refine ⟨t, ofConversion_ok converted, ?_⟩
    rcases yields with fits | ⟨operator, inside, isOperator⟩
    · exact (fits.handled reader w).weaken fun _ => .left
    · exact (isOperator.handled (inside.described described) reader w).weaken fun _ => .right
  · obtain ⟨t, converted, yields⟩ := convert_gives (described_inside inside described) reader w.reading
    exact ⟨t, converted, yields.absent_iff⟩
  · obtain ⟨scope, isPart, gives⟩ := operatorBody_gives (described_inside inside described)
    obtain ⟨body, converted, yields⟩ := gives reader w.reading
    exact ⟨scope, body, isPart, converted, by simpa using yields.absent_iff⟩

def transposeTree (index : String) : ParseTree := transposition [] [] [index] .absent

def callTree (operator : ParseTree) : ParseTree :=
  .node (some "EOpCall") [.node none [] [("OIInstance", .absent), ("OIOperator", operator)], .list []] []

def operatorTree (value : ParseTree) : ParseTree :=
  let equation : ParseTree := .node (some "Equation") [.node (some "LhsEmpty") [] [], value, .absent] []
  .node (some "DOperator") [.node none []
    [("OpNode", .truth true), ("OpId", .located (.text "f")), ("OpInputs", .list []),
      ("OpOutputs", .list []), ("OpSizes", .list []), ("OpConstraints", .list []),
      ("OpSpecialization", .absent), ("OpPragmas", .list []),
        ("OpBody", .node (some "SDEquation") [equation] [])]] []

def ones (n : Nat) : String := String.ofList (List.replicate n '1')

theorem length_ones (n : Nat) : (ones n).length = n := by
  rw [ones, String.length_ofList, List.length_replicate]

theorem isDecimal_ones {n : Nat} (some : 0 < n) : isDecimal (ones n) = true := by
  have filled : (ones n).isEmpty = false := by
    rw [Bool.eq_false_iff]
    intro empty
    have := length_ones n
    rw [String.isEmpty_iff.mp empty] at this
    exact some.ne this
  have digits : (ones n).toList.all Char.isDigit = true := by
    rw [ones, String.toList_ofList, List.all_replicate]
    simp
  simp [isDecimal, filled, digits]

/-- An operator that transposes is printed, though its body is first a tree. A second index that is
too long is refused. -/
theorem transposition_is_handled :
    (operatorTree (callTree (transposeTree "12"))).describedBy .declaration = true ∧
      (∃ t, perform (Work.ofConversion
          (convert .declaration (operatorTree (callTree (transposeTree "12"))))) Reader.none {} =
            (.ok t, {}) ∧
        Handled (.either .declaration (.decl .operator)) t Reader.none {}) ∧
      perform (convert .operator (transposition [] [] ["12", ones 4301] .absent)) Reader.none {} =
        (.error .tooManyDigits, {}) := by
  have described : (operatorTree (callTree (transposeTree "12"))).describedBy .declaration =
      true := by decide +kernel
  obtain ⟨handled, refused⟩ := language_is_handled Reader.none {}
  refine ⟨described, (handled _ described).1, refused [] [] _ _ (by simp) ?_ ⟨ones 4301, by simp, ?_⟩⟩
  · simpa [isDecimal_ones] using (by decide : isDecimal "12" = true)
  · rw [length_ones]
    decide

def constantTree (value : ParseTree) : ParseTree := .node none []
  [("ConstId", .identifier (.text "c") (.list [])),
    ("ConstType", .node (some "TPredefinedType") [.node (some "Bool") [] []] []),
    ("ConstDefinition", .present value)]

def constantsTree (value : ParseTree) : ParseTree :=
  .node (some "DConst") [.list [constantTree value], .absent] []

/-- An error passes through the call, the value of the constant and the list of constants. -/
theorem constants_refused {e : Error} {s : Reading}
    (refused : ∀ levels, perform (operator (convertUpTo levels) tree) reader s = (.error e, s)) :
    perform (convert .declaration (constantsTree (callTree tree))) reader s = (.error e, s) := by
  rw [convert, perform_bind_ok (perform_read reader s)]
  obtain ⟨levels, same⟩ : ∃ levels, levelsFor reader (constantsTree (callTree tree)) = levels + 3 :=
    ⟨_, rfl⟩
  have called : perform (expr (convertUpTo (levels + 1)) (callTree tree)) reader s = (.error e, s) :=
    perform_bind_error (refused levels) _
  have valued : perform (constant (convertUpTo (levels + 2)) (constantTree (callTree tree)))
      reader s = (.error e, s) := perform_bind_error called _
  rw [same]
  exact perform_bind_error (perform_bind_error (perform_bind_error valued _) _) _

/-- A declaration of the language leaves it, and is refused, when the decimal index in it gets too
long. -/
theorem very_long_index_refused :
    (constantsTree (callTree (transposeTree "1"))).describedBy .declaration = true ∧
      isDecimal (ones 4301) = true ∧
        perform (convert .declaration (constantsTree (callTree (transposeTree (ones 4301)))))
          Reader.none {} = (.error .tooManyDigits, {}) := by
  have decimal : isDecimal (ones 4301) = true := isDecimal_ones (by decide)
  refine ⟨by decide +kernel, decimal, constants_refused fun levels => ?_⟩
  have sized : perform (each (exprOrText (convertUpTo levels)) (.list [])) Reader.none {} =
      (.ok (.list []), {}) := rfl
  refine operator_refused sized (by simpa using decimal) ⟨ones 4301, by simp, ?_⟩
  rw [length_ones]
  decide

end SwanModel
