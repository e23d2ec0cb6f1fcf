import SwanModel.Proofs.Convert.Present
import SwanModel.Proofs.Store.Once

/-!
# Whether an operator has a body

An operator that waits for its body counts as an operator with a body, whatever its tree describes.
-/

namespace SwanModel

open Work SwanModel.Convert

variable {reader : Reader} {store : Store} {w v : Workspace} {id : Nat} {tree : ParseTree}
  {t : Term} {slot : Slot} {form : Form} {slots : List Slot} {owner : Owner}

/-! ### Which trees describe a body -/

def ParseTree.isFilledScope (tree : ParseTree) : Bool :=
  match tree.tag with
  | .ok "SDEquation" | .ok "SDSections" => true
  | _ => false

def ParseTree.describesBody (tree : ParseTree) : Bool :=
  match tree.field "OpBody" with
  | .ok scope => scope.isFilledScope
  | .error _ => false

theorem scope_isAbsent {self : Convert} [equations : ∀ tree, NeverAbsent (self .equation tree)]
    (given : CanGive (scope self tree) t) : t.isAbsent = !tree.isFilledScope := by
  obtain ⟨reader, s, s', ran⟩ := given
  obtain ⟨name, s₁, asked, ran⟩ := bind_ok ran
  have tagged := (ofExcept_ok asked).1
  rw [ParseTree.isFilledScope, tagged]
  split at ran
  · cases ran
    rfl
  · exact (NeverAbsent.after equations).given t ⟨reader, s₁, s', ran⟩
  · exact (NeverAbsent.after fun _ => .after fun _ => inferInstance).given t ⟨reader, s₁, s', ran⟩
  · cases ran
    simp_all [Term.isAbsent]

/-- Three levels are there for the operator, its scope and the equation in it. -/
theorem convertUpTo_body_isAbsent {levels : Nat}
    (given : CanGive (convertUpTo (levels + 3) .operatorBody tree) t) :
    t.isAbsent = !tree.describesBody := by
  obtain ⟨reader, s, s', ran⟩ := given
  obtain ⟨body, s₁, asked, ran⟩ := bind_ok ran
  rw [ParseTree.describesBody, (ofExcept_ok asked).1]
  have equations : ∀ tree, NeverAbsent (convertUpTo (levels + 1) .equation tree) := fun tree =>
    inferInstanceAs (NeverAbsent (equation (convertUpTo levels) tree))
  exact scope_isAbsent ⟨reader, s₁, s', ran⟩

/-- The body of an operator is nothing exactly if its tree describes none. -/
theorem BodyOf.isAbsent (stands : BodyOf reader tree t) : t.isAbsent = !tree.describesBody := by
  obtain ⟨s, s', ran⟩ := stands
  obtain ⟨_, _, asked, ran⟩ := bind_ok ran
  cases asked
  rw [levelsFor] at ran
  exact convertUpTo_body_isAbsent ⟨reader, s, s', ran⟩

/-! ### Reading of the property -/

theorem perform_property {name : String} {p : Property} (reader : Reader)
    (isForm : v.store.form? (.ref id) = some form) (known : form.property? name = some p)
    (other : name ≠ "owner") :
    perform (property name (.ref id)) reader v = perform (readProperty id p) reader v := by
  rw [property, perform_bind_ok perform_store, isForm]
  dsimp only
  rw [if_neg (by simpa using other), known]

theorem readProperty_truth {p : Property} {parts : List Term} {answer : Except Error Bool}
    (reader : Reader) (shown : v.store.view (.ref id) = .ok (.node form parts))
    (given : p parts = answer.map fun b => .made (.truth b))
    (definite : ∀ k, answer ≠ .error (.pending k)) :
    perform (readProperty id p) reader v = (answer.map fun b => .slot (.atom (.truth b)), v) := by
  rw [readProperty, perform_bind, observe_definite]
  · rw [shown]
    simp only [bind, Except.bind, given]
    cases answer <;> rfl
  · intro k
    rw [shown]
    simp only [bind, Except.bind, given]
    cases answer with
    | error e => simpa [Except.map] using definite k
    | ok b => simp [Except.map]

/-- The body of an operator is shown as something unless it is computed and nothing. -/
theorem view_body (closed : store.ClosedFrom 0) (found : store.cell? id = some (.node form slots owner))
    (body : slots[Operator.bodyIndex]? = some slot) :
      ∃ parts, store.view (.ref id) = .ok (.node form parts) ∧
        ((partAt parts Operator.bodyIndex).isAbsent = true ↔ slot = .atom .absent) := by
  obtain ⟨parts, shown⟩ := view_construct closed found
  refine ⟨parts, shown, ?_⟩
  rw [Store.view, Store.viewInside, found] at shown
  obtain ⟨ts, made, same⟩ := mapped_ok shown
  cases same
  obtain ⟨t, part, seen⟩ := mapM_getElem? made body
  have same : partAt parts Operator.bodyIndex = t := by simp [partAt, List.getD_eq_getElem?_getD, part]
  rw [same]
  cases slot with
  | delayed d =>
    cases seen
    simp [Term.isAbsent]
  | ref inner => simp [viewInside_isAbsent seen]
  | atom u =>
    have whole : store.viewInside store.cells.size [id] (.atom u) = .ok u := by
      cases store.cells.size <;> rfl
    cases whole.symm.trans seen
    cases t <;> simp [Term.isAbsent]

/-- An operator is asked whether it has a body: it answers, and nothing changes. -/
def AnswersHasBody (reader : Reader) (id : Nat) (v : Workspace) (answer : Bool) : Prop :=
  perform (property "has_body" (.ref id)) reader v = (.ok (.slot (.atom (.truth answer))), v)

theorem answers_hasBody (reader : Reader) (closed : v.store.ClosedFrom 0)
    (found : v.store.cell? id = some (.node (.decl .operator) slots owner))
    (body : slots[Operator.bodyIndex]? = some slot) {answer : Bool}
    (right : answer = false ↔ slot = .atom .absent) :
    AnswersHasBody reader id v answer := by
  obtain ⟨parts, shown, absent⟩ := view_body closed found body
  have given : (!(partAt parts Operator.bodyIndex).isAbsent) = answer := by
    rw [Bool.not_eq_eq_eq_not, Bool.eq_iff_iff, absent, ← right, Bool.not_eq_true']
  have isOperator : v.store.form? (.ref id) = some (.decl .operator) := by simp [Store.form?, found]
  have known : (Form.decl .operator).property? "has_body" =
      some (Property.given Operator.bodyIndex) := rfl
  have stated : Property.given Operator.bodyIndex parts = (Except.ok answer).map fun b =>
      .made (.truth b) := by
    rw [← given]
    rfl
  exact (perform_property reader isOperator known (by decide)).trans
    (readProperty_truth reader shown stated (by simp))

theorem Store.Waits.answersHasBody (waits : v.store.Waits id tree) (closed : v.store.ClosedFrom 0)
    (reader : Reader) : AnswersHasBody reader id v true := by
  obtain ⟨slots, owner, found, delayed⟩ := waits.cell
  exact answers_hasBody reader closed found delayed (by simp)

theorem IsBody.absent_iff (body : IsBody reader store id t slot) (stands : BodyOf reader tree t) :
    tree.describesBody = false ↔ slot = .atom .absent := by
  have described := stands.isAbsent
  obtain ⟨s, s', converted⟩ := stands
  have held := body.held
  rcases ((convert_delays .operatorBody tree rfl).result converted).absent_or_construct with
    rfl | ⟨form, parts, rfl⟩
  · cases held
    simpa [Term.isAbsent] using described
  · cases held
    · rename_i plain
      cases plain
    · simpa [Term.isAbsent] using described

theorem Store.Has.answersHasBody (has : v.store.Has reader id t slot) (closed : v.store.ClosedFrom 0)
    (stands : BodyOf reader tree t) : AnswersHasBody reader id v tree.describesBody := by
  obtain ⟨slots, owner, found⟩ := Store.form?_ref has.form
  exact answers_hasBody reader closed found ((Store.body?_eq found).symm.trans has.body)
    (has.isBody.absent_iff stands)

/-! ### Operators in the course of time -/

/-- What reading the body of an operator shows: nothing exactly if the tree describes no body, and a
failure only if the operator goes on waiting. -/
def ShowsBody (reader : Reader) (id : Nat) (tree : ParseTree) (v : Workspace) : Prop :=
  match perform (property "body" (.ref id)) reader v with
  | (.ok given, v') => ∃ slot, given = .slot slot ∧ (slot = .atom .absent ↔ tree.describesBody = false) ∧
      v'.store.isWaiting id = false
  | (.error _, v') => v.store.isWaiting id = true ∧ v'.store.isWaiting id = true

theorem Store.Waits.showsBody (waits : v.store.Waits id tree) (closed : v.store.ClosedFrom 0)
    (reader : Reader) : ShowsBody reader id tree v := by
  obtain ⟨slots, owner, found, delayed⟩ := waits.cell
  have forced := force_waiting reader waits
  rw [ShowsBody, body_forced reader closed found delayed]
  rcases ran : perform (force id) reader v with ⟨e | done, v'⟩
  · rw [ran] at forced
    exact ⟨waits.isWaiting, forced.2.1.isWaiting⟩
  · rw [ran] at forced
    obtain ⟨t, slot, converted, has, -⟩ := forced
    have stands : BodyOf reader tree t := ⟨v.reading, _, Prod.ext converted rfl⟩
    refine ⟨slot, ?_, (has.isBody.absent_iff stands).symm, has.isWaiting⟩
    rw [has.body]
    rfl

theorem Store.Has.showsBody (has : v.store.Has reader id t slot) (closed : v.store.ClosedFrom 0)
    (stands : BodyOf reader tree t) : ShowsBody reader id tree v := by
  rw [ShowsBody, (has.converted closed).read]
  exact ⟨slot, rfl, (has.isBody.absent_iff stands).symm, has.isWaiting⟩

theorem userOperator_ok {s s' : Reading}
    (converted : perform (convert .userOperator tree) reader s = (.ok t, s')) :
    ∃ parts, t = .node (.decl .operator) parts ∧ parts[Operator.bodyIndex]? = some (.raw tree) := by
  obtain ⟨_, _, -, converted⟩ := bind_ok converted
  obtain ⟨parts, _, -, converted⟩ := bind_ok converted
  obtain ⟨_, filled, rfl⟩ := make_ok converted
  cases filled
  exact ⟨_, rfl, rfl⟩

theorem userOperator_waits {w₀ : Workspace}
    (obtained : perform (do load (← ofConversion (convert .userOperator tree))) reader w₀ =
      (.ok (.ref id), w)) :
    w.store.Waits id tree := by
  obtain ⟨t, s, converted, held⟩ := converted_held obtained
  obtain ⟨parts, rfl, body⟩ := userOperator_ok converted
  cases held with
  | node cell members => exact .of_cell cell (members.delayed body)

/-- An operator that is built waits for its body. However it is used, it says that it has a body as
long as it waits, and from then on if its tree describes one. -/
theorem has_body_until_converted (reader : Reader) (before : List Access) {tree : ParseTree}
    {id : Nat} {w : Workspace}
    (obtained : perform (do load (← ofConversion (convert .userOperator tree))) reader
      (({} : Workspace).after reader before) = (.ok (.ref id), w)) :
    w.store.isWaiting id = true ∧ ∀ accesses,
      let v := w.after reader accesses
      AnswersHasBody reader id v (v.store.isWaiting id || tree.describesBody) ∧
        ShowsBody reader id tree v ∧ (v.store.isWaiting id = false →
          ∀ later, (v.after reader later).store.isWaiting id = false) := by
  have waits := userOperator_waits obtained
  have settled : Settling reader _ w := Keeps.after obtained
  have closed := (settled (closed_after reader before)).closed
  refine ⟨waits.isWaiting, fun accesses => ?_⟩
  intro v
  have after : Settles reader w v := settles_after reader closed accesses
  rcases waits.later after.cells with waits | ⟨t, slot, stands, has⟩
  · rw [waits.isWaiting]
    exact ⟨waits.answersHasBody after.closed reader, waits.showsBody after.closed reader, by simp⟩
  · rw [has.isWaiting]
    refine ⟨has.answersHasBody after.closed stands, has.showsBody after.closed stands, fun _ later => ?_⟩
    exact (has.later (settles_after reader after.closed later).cells).isWaiting

def emptyOperator : ParseTree :=
  .node none [] [("OpNode", .truth false), ("OpId", .located (.text "f")), ("OpInputs", .list []),
    ("OpOutputs", .list []), ("OpSizes", .list []), ("OpConstraints", .list []),
    ("OpSpecialization", .absent), ("OpPragmas", .list []), ("OpBody", .node (some "SDEmpty") [] [])]

/-- The operator is asked for its text, which needs its body. -/
theorem empty_operator_until_converted :
    let w := (perform (do load (← ofConversion (convert .userOperator emptyOperator))) Reader.none {}).2
    perform (do load (← ofConversion (convert .userOperator emptyOperator))) Reader.none
        (({} : Workspace).after Reader.none []) = (.ok (.ref 7), w) ∧
      (∀ accesses, AnswersHasBody Reader.none 7 (w.after Reader.none accesses)
        ((w.after Reader.none accesses).store.isWaiting 7)) ∧
      w.store.isWaiting 7 = true ∧ (w.after Reader.none [.text 7]).store.isWaiting 7 = false := by
  intro w
  have obtained : perform (do load (← ofConversion (convert .userOperator emptyOperator))) Reader.none
      (({} : Workspace).after Reader.none []) = (.ok (.ref 7), w) := placeOf_eq (by decide +kernel)
  obtain ⟨waiting, always⟩ := has_body_until_converted Reader.none [] obtained
  refine ⟨obtained, fun accesses => ?_, waiting, by decide +kernel⟩
  have none : emptyOperator.describesBody = false := by decide +kernel
  have answers := (always accesses).1
  rwa [none, Bool.or_false] at answers

/-- The same operator has a body, then none is found, and then it has no body. -/
theorem empty_operator_changes_answer :
    let w := (perform (do load (← ofConversion (convert .userOperator emptyOperator))) Reader.none {}).2
    AnswersHasBody Reader.none 7 w true ∧
      (perform (property "body" (.ref 7)) Reader.none w).1 = .ok (.slot (.atom .absent)) ∧
      AnswersHasBody Reader.none 7 (perform (property "body" (.ref 7)) Reader.none w).2 false :=
  ⟨rfl, rfl, rfl⟩

end SwanModel
