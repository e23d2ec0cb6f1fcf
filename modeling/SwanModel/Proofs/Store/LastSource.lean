import SwanModel.Proofs.Store.Once

/-!
# The source of a delayed body

A body that is converted when it is asked for is read under the source of the last call of a parser
before, and not under the one that the operator stands in.
-/

namespace SwanModel

open Work

variable {α β : Type} {reader : Reader} {name : String} {s : Reading} {w : Workspace} {id : Nat}
  {tree : ParseTree}

/-- The names of the sources that a conversion opens, one for each text that it reads again. -/
inductive Opens (reader : Reader) : {γ : Type} → Conversion γ → Reading → List String → Prop
  | none {γ : Type} {x : Conversion γ} {s : Reading} (unread : (perform x reader s).2.reads = s.reads) :
    Opens reader x s []
  | again {s : Reading} {rule : ReadRule} {text : Term} {name code : String}
    (current : s.source = some name) (printed : text.print = .ok code) :
    Opens reader (reread rule text) s [(Source.ofText code name).name]
  | stop {γ δ : Type} {x : Conversion γ} {f : γ → Conversion δ} {s s' : Reading}
    {names : List String} {e : Error} (first : Opens reader x s names)
    (failed : perform x reader s = (.error e, s')) : Opens reader (x >>= f) s names
  | next {γ δ : Type} {x : Conversion γ} {f : γ → Conversion δ} {s s' : Reading}
    {names more : List String} {a : γ} (first : Opens reader x s names)
    (gave : perform x reader s = (.ok a, s')) (rest : Opens reader (f a) s' more) :
    Opens reader (x >>= f) s (names ++ more)

theorem reads_reread {rule : ReadRule} {text : Term} {code : String} (current : s.source = some name)
    (printed : text.print = .ok code) :
    (perform (reread rule text) reader s).2.reads = s.reads ++ [(rule, "<string>")] := by
  rw [reread, perform_bind_ok (perform_currentSource current reader), printed]
  change (perform (readSource s.parser rule (Source.ofText code name)) reader s).2.reads = _
  cases replied : (reader.reply rule code).outcome <;>
    simp only [readSource, Source.ofText, perform_bind, perform_modify, perform_read, replied,
      perform_pure, perform_throw]

theorem Opens.length {x : Conversion α} {names : List String} (opens : Opens reader x s names) :
    (perform x reader s).2.reads.length = s.reads.length + names.length := by
  induction opens with
  | none unread => simp [unread]
  | again current printed => simp [reads_reread current printed]
  | stop _ failed ih => rw [perform_bind_error failed, ← ih, failed]
  | next _ gave _ ih ih' =>
    rw [gave] at ih
    rw [perform_bind_ok gave, ih', ih, List.length_append, Nat.add_assoc]

theorem Composed.opens [Carrier α] {x : Conversion α} (composed : Composed x) (named : name ≠ "")
    (current : s.source = some name) : ∃ names, Opens reader x s names ∧ ∀ n ∈ names, n = name := by
  induction composed generalizing s with
  | pure => exact ⟨[], .none rfl, by simp⟩
  | throw e => exact ⟨[], .none rfl, by simp⟩
  | reader => exact ⟨[], .none rfl, by simp⟩
  | log message => exact ⟨[], .none rfl, by simp⟩
  | again rule text =>
    rcases printed : text.print with e | code
    · refine ⟨[], .none ?_, by simp⟩
      rw [reread, perform_bind_ok (perform_currentSource current reader), printed]
      rfl
    · exact ⟨_, .again current printed, by simp [Source.name_ofText named]⟩
  | bind first rest ih ih' =>
    rename_i x f
    obtain ⟨names, opens, same⟩ := ih current
    rcases ran : perform x reader s with ⟨e | a, s'⟩
    · exact ⟨names, .stop opens ran, same⟩
    · obtain ⟨outcome, reads, logs, contained⟩ := first.contained reader named
      have current' : s'.source = some name := by
        have ended := congrArg (·.2.source) (ran.symm.trans (contained s current))
        exact ended.trans current
      obtain ⟨more, opens', same'⟩ := ih' a ⟨reader, s, s', ran⟩ current'
      refine ⟨names ++ more, .next opens ran opens', fun n inside => ?_⟩
      exact (List.mem_append.mp inside).elim (same n) (same' n)

theorem obtain_source (call : Call) (named : call.source.name ≠ "") (reader : Reader) (w : Workspace) :
    (perform (obtain call) reader w).2.reading.source = some call.source.name := by
  obtain ⟨outcome, reads, logs, ran⟩ := call.task.parse_named named reader
  rw [obtain, perform_bind, perform_ofConversion, ran]
  cases outcome with
  | error e => rfl
  | ok result => exact congrArg Reading.source (load_fresh result.1 reader _).reading

theorem source_after_parse (reader : Reader) (w : Workspace) (others : List Access) {last : Call}
    (named : last.source.name ≠ "") :
    (w.after reader (others ++ [.parse last])).reading.source = some last.source.name := by
  have parsed := obtain_source last named reader (w.after reader others)
  rw [Workspace.after_append]
  change (perform (settle (Access.parse last).work) reader (w.after reader others)).2.reading.source = _
  rw [perform_settle, Access.work, perform_bind]
  rcases ran : perform (obtain last) reader (w.after reader others) with ⟨e | slot, v⟩
  · rw [ran] at parsed
    exact parsed
  · rw [ran] at parsed
    exact parsed

/-- A parser is called and then an operator is asked for its body: all sources that this opens have
the name of the source of that call, wherever the operator comes from. -/
theorem body_is_read_under_last_source (reader : Reader) (w : Workspace) (others : List Access)
    {last : Call} (named : last.source.name ≠ "")
    (waits : (w.after reader (others ++ [.parse last])).store.Waits id tree) :
    let v := w.after reader (others ++ [.parse last])
    ∃ names, Opens reader (convert .operatorBody tree) v.reading names ∧
      (∀ n ∈ names, n = last.source.name) ∧ (perform (force id) reader v).2.reading.reads.length =
        v.reading.reads.length + names.length := by
  intro v
  have current := source_after_parse reader w others named
  obtain ⟨names, opens, same⟩ :=
    Composed.opens (x := convert .operatorBody tree) inferInstance named current
  refine ⟨names, opens, same, ?_⟩
  have forced := force_waiting reader waits
  rw [← opens.length]
  rcases ran : perform (force id) reader v with ⟨e | _, v'⟩
  · rw [ran] at forced
    rw [forced.2.2]
  · rw [ran] at forced
    obtain ⟨_, _, _, _, reading⟩ := forced
    rw [reading]

/-- The text in a module `m` is read as a part of the source that a parser failed on in the
meantime. -/
theorem caller_is_read_under_other_source :
    let w := (perform (obtain ⟨1, .module .body, .ofText "callers" "m"⟩) callersReader {}).2
    let v := w.after callersReader [.parse ⟨2, .fragment .expr, .ofText "x" "other"⟩]
    w.reading.source = some "m" ∧ w.store.operators (.ref 22) = [12, 20] ∧
      (perform (force 12) callersReader v).2.reading.reads =
        v.reading.reads ++ [(.operatorBlock, "<string>")] ∧
      (perform (force 12) callersReader v).2.reading.source = some "other" := by
  decide +kernel

end SwanModel
