import SwanModel.Proofs.Store.LastSource

/-!
# A text that cannot be read ends the call

The first text that cannot be read is the last one that is asked for, its message is the outcome of
the whole call, and the log gets it once. What a computation asks for is seen in the log (`Asks`).
-/

namespace SwanModel

open Work

variable {asked asked' : List Question}

variable {α β : Type} {reader : Reader}

structure Question where
  rule : ReadRule
  text : String
deriving DecidableEq

def Outcome.failure? : Outcome → Option String
  | .tree _ => none
  | .refused message => some ("Parser: " ++ message)
  | .crashed message => some ("Internal: " ++ message)

namespace Reader

def lines (reader : Reader) (q : Question) : List LogLine := (reader.reply q.rule q.text).logs

/-- The message for a text that the reader does not read. -/
def failure? (reader : Reader) (q : Question) : Option String :=
  (reader.reply q.rule q.text).outcome.failure?

def writing (reader : Reader) (write : Question → List LogLine) : Reader :=
  { reader with reply := fun rule text => ⟨write ⟨rule, text⟩, (reader.reply rule text).outcome⟩ }

theorem writing_lines (reader : Reader) : reader.writing reader.lines = reader := rfl

end Reader

/-- The texts that a computation asks its reader for, in order: whatever the reader writes when it
is asked, the log gets these lines, and the lines of the computation itself behind them. -/
def Asks (x : Conversion α) (reader : Reader) (s : Reading) (asked : List Question) : Prop :=
  ∃ own, ∀ write, (perform x (reader.writing write) s).2.logs = s.logs ++ (asked.flatMap write ++ own)

theorem ReadRule.name_injective : Function.Injective ReadRule.name := by
  intro a b same
  cases a <;> cases b <;> first | rfl | simp [ReadRule.name] at same

theorem Question.zipWith_map (asked : List Question) :
    List.zipWith Question.mk (asked.map Question.rule) (asked.map Question.text) = asked := by
  simp [List.zipWith_map]

theorem asked_unique {own own' : List LogLine}
    (same : ∀ write : Question →
      List LogLine, asked.flatMap write ++ own = asked'.flatMap write ++ own') :
    asked = asked' := by
  have own_eq : own = own' := by simpa [List.flatMap] using same fun _ => []
  subst own_eq
  have shown (f : Question → String) : asked.map f = asked'.map f := by
    have lines := List.append_cancel_right (same fun q => [⟨.debug, f q⟩])
    have texts := congrArg (List.map LogLine.text) lines
    simpa [← List.map_eq_flatMap, Function.comp_def] using texts
  have texts := shown Question.text
  have rules : asked.map Question.rule = asked'.map Question.rule := by
    have names := shown (ReadRule.name ∘ Question.rule)
    rwa [← List.map_map, ← List.map_map, ReadRule.name_injective.list_map.eq_iff] at names
  rw [← Question.zipWith_map asked, rules, texts, Question.zipWith_map]

/-- A computation asks for one list of texts only. -/
theorem Asks.unique {x : Conversion α} {s : Reading} (asks : Asks x reader s asked)
    (asks' : Asks x reader s asked') : asked' = asked := by
  obtain ⟨own, lines⟩ := asks
  obtain ⟨own', lines'⟩ := asks'
  exact asked_unique fun write => List.append_cancel_left ((lines' write).symm.trans (lines write))

/-! ### Failures -/

def NoneFails (reader : Reader) (asked : List Question) : Prop := ∀ q ∈ asked, reader.failure? q = none

theorem NoneFails.append (first : NoneFails reader asked)
    (second : NoneFails reader asked') : NoneFails reader (asked ++ asked') :=
  List.forall_mem_append.mpr ⟨first, second⟩

/-- The last text fails and none before it, and the failure is the outcome. -/
def FailsLast (reader : Reader) (asked : List Question) (outcome : Except Error α) : Prop :=
  ∃ before q message, asked = before ++ [q] ∧ NoneFails reader before ∧
    reader.failure? q = some message ∧ outcome = .error (.reported message)

theorem FailsLast.cast {e : Error} (fails : FailsLast reader asked (.error e : Except Error α)) :
    FailsLast reader asked (.error e : Except Error β) := by
  obtain ⟨before, q, message, split, read, fails, same⟩ := fails
  cases same
  exact ⟨before, q, message, split, read, fails, rfl⟩

theorem FailsLast.after {outcome : Except Error α} (read : NoneFails reader asked)
    (fails : FailsLast reader asked' outcome) : FailsLast reader (asked ++ asked') outcome := by
  obtain ⟨before, q, message, split, read', fails, same⟩ := fails
  exact ⟨asked ++ before, q, message, by rw [split, List.append_assoc], read.append read', fails, same⟩

/-- A value is given only if all texts are read. -/
theorem noneFails_of_ok {a : α}
    (surfaces : NoneFails reader asked ∨ FailsLast reader asked (.ok a)) : NoneFails reader asked := by
  rcases surfaces with read | ⟨_, _, _, _, _, _, failed⟩
  · exact read
  · cases failed

def Question.inner (q : Question) : ReadRule × String := (q.rule, "<string>")

/-- How a conversion inside a source goes, whatever its reader writes: what it gives and asks for is
always the same, and it ends with the first text that fails. -/
def Traced (x : Conversion α) (reader : Reader) : Prop :=
  ∃ outcome asked, (NoneFails reader asked ∨ FailsLast reader asked outcome) ∧
    ∀ (write : Question → List LogLine) (s : Reading), s.source.isSome → ∃ parser name,
      perform x (reader.writing write) s =
        (outcome, { s with parser := parser, source := some name }.extend
          (asked.map Question.inner) (asked.flatMap write))

theorem traced_of_perform {x : Conversion α} (outcome : Except Error α)
    (same : ∀ write s, perform x (reader.writing write) s = (outcome, s)) : Traced x reader := by
  refine ⟨outcome, [], .inl (List.forall_mem_nil _), fun write s current => ?_⟩
  obtain ⟨name, current⟩ := Option.isSome_iff_exists.mp current
  refine ⟨s.parser, name, ?_⟩
  rw [same, ← current]
  exact congrArg _ (Reading.extend_nil s).symm

/-- What a parser makes of the answer to a question. -/
def Outcome.result : Outcome → Except Error ParseTree
  | .tree answer => .ok answer
  | .refused message => .error (.reported ("Parser: " ++ message))
  | .crashed message => .error (.reported ("Internal: " ++ message))

theorem perform_ask {source : Source} {text : String} (content : source.content = .ok text)
    (parser : Nat) (rule : ReadRule) (write : Question → List LogLine) (s : Reading) :
    perform (readSource parser rule source) (reader.writing write) s =
      ((reader.reply rule text).outcome.result, { s with
        parser := parser, source := some source.name }.extend [(rule, source.origin)]
          (write ⟨rule, text⟩)) := by
  have outcome :
      ((reader.writing write).reply rule text).outcome = (reader.reply rule text).outcome := rfl
  cases replied : (reader.reply rule text).outcome <;>
    simp only [readSource, content, perform_bind, perform_modify, perform_read, outcome, replied,
      perform_pure, perform_throw] <;>
    rfl

theorem ask_surfaces (q : Question) :
    NoneFails reader [q] ∨ FailsLast reader [q] (reader.reply q.rule q.text).outcome.result := by
  rcases replied : (reader.reply q.rule q.text).outcome with tree | message | message
  · refine .inl (List.forall_mem_singleton.mpr ?_)
    rw [Reader.failure?, replied]
    rfl
  · refine .inr ⟨[], q, "Parser: " ++ message, rfl, List.forall_mem_nil _, ?_, rfl⟩
    rw [Reader.failure?, replied]
    rfl
  · refine .inr ⟨[], q, "Internal: " ++ message, rfl, List.forall_mem_nil _, ?_, rfl⟩
    rw [Reader.failure?, replied]
    rfl

theorem traced_reread (rule : ReadRule) (text : Term) : Traced (reread rule text) reader := by
  rcases printed : text.print with e | code
  · refine ⟨.error e, [], .inl (List.forall_mem_nil _), fun write s current => ?_⟩
    obtain ⟨name, current⟩ := Option.isSome_iff_exists.mp current
    refine ⟨s.parser, name, ?_⟩
    rw [reread, perform_bind_ok (perform_currentSource current _), printed, ← current]
    exact congrArg _ (Reading.extend_nil s).symm
  · refine ⟨_, [⟨rule, code⟩], ask_surfaces ⟨rule, code⟩, fun write s current => ?_⟩
    obtain ⟨name, current⟩ := Option.isSome_iff_exists.mp current
    refine ⟨s.parser, (Source.ofText code name).name, ?_⟩
    rw [reread, perform_bind_ok (perform_currentSource current _), printed, List.flatMap_singleton]
    exact perform_ask (rfl : (Source.ofText code name).content = .ok code) s.parser rule write s

theorem Traced.bind {x : Conversion α} {f : α → Conversion β} (first : Traced x reader)
    (rest : ∀ a, CanGive x a → Traced (f a) reader) : Traced (x >>= f) reader := by
  obtain ⟨outcome, asked, surfaces, ran⟩ := first
  cases outcome with
  | error e =>
    refine ⟨.error e, asked, surfaces.imp_right FailsLast.cast, fun write s current => ?_⟩
    obtain ⟨parser, name, ran⟩ := ran write s current
    exact ⟨parser, name, perform_bind_error ran f⟩
  | ok a =>
    have read := noneFails_of_ok surfaces
    obtain ⟨_, _, sample⟩ := ran (fun _ => []) { source := some "" } rfl
    obtain ⟨outcome', asked', surfaces', ran'⟩ := rest a ⟨_, _, _, sample⟩
    refine ⟨outcome', asked ++ asked', surfaces'.imp read.append (.after read),
      fun write s current => ?_⟩
    obtain ⟨parser, name, ran⟩ := ran write s current
    obtain ⟨parser', name', ran'⟩ := ran' write ({ s with parser := parser, source := some name }.extend
      (asked.map Question.inner) (asked.flatMap write)) rfl
    refine ⟨parser', name', ?_⟩
    rw [perform_bind_ok ran, ran', List.map_append, List.flatMap_append]
    simp [Reading.extend]

/-- Converters end with the first text that fails. -/
theorem Silent.traced [Carrier α] {x : Conversion α} (silent : Silent x) (reader : Reader) :
    Traced x reader := by
  induction silent with
  | @pure _ _ a => exact traced_of_perform (.ok a) fun _ _ => rfl
  | throw e => exact traced_of_perform (.error e) fun _ _ => rfl
  | depth => exact traced_of_perform (.ok reader.depth) fun _ _ => rfl
  | again rule text => exact traced_reread rule text
  | bind _ _ first rest => exact first.bind rest

/-! ### Calls of parsers -/

def OnlyWrites (x : Conversion α) : Prop :=
  ∃ a own, ∀ reader s, perform x reader s = (.ok a, s.extend [] own)

theorem OnlyWrites.pure (a : α) : OnlyWrites (Pure.pure a : Conversion α) := by
  refine ⟨a, [], fun reader s => ?_⟩
  rw [perform_pure, Reading.extend_nil]

theorem OnlyWrites.bind {x : Conversion α} {f : α → Conversion β} (first : OnlyWrites x)
    (rest : ∀ a, OnlyWrites (f a)) : OnlyWrites (x >>= f) := by
  obtain ⟨a, own, ran⟩ := first
  obtain ⟨b, own', ran'⟩ := rest a
  refine ⟨b, own ++ own', fun reader s => ?_⟩
  rw [perform_bind_ok (ran reader s), ran', Reading.extend_extend, List.append_nil]

theorem logLoader_onlyWrites (message : String) : OnlyWrites (logLoader message) := by
  refine ⟨⟨⟩, [⟨.error, "SwanLoader: " ++ message⟩], fun reader s => ?_⟩
  simp [logLoader, Reading.extend]

theorem informationOf_onlyWrites (tree : ParseTree) : OnlyWrites (informationOf tree) := by
  refine .bind ?_ fun value => ?_
  · unfold informationValue
    split
    · exact .pure none
    · split
      · exact .pure _
      · exact (logLoader_onlyWrites _).bind fun _ => .pure none
    · exact (logLoader_onlyWrites _).bind fun _ => .pure none
  · split
    · exact .pure _
    · exact (logLoader_onlyWrites _).bind fun _ => .pure _

/-- A call reads its source, converts what it has read, and only writes to the log after that. -/
theorem Task.parse_split (task : Task) (source : Source) :
    ∃ (inside : ParseTree → Conversion (Term × ParseTree))
      (finish : Term × ParseTree → Conversion (Term × Option Information)),
      (∀ tree, Silent (inside tree)) ∧ (∀ result, OnlyWrites (finish result)) ∧
        ∀ parser, task.parse parser source = readSource parser task.readRule source >>= fun tree =>
          inside tree >>= finish := by
  cases task with
  | fragment part =>
    refine ⟨fun tree => do return (← convert part.rule tree, .absent),
      fun result => return (result.1, none), inferInstance, fun result => .pure _, fun parser => ?_⟩
    simp only [parse, parseFragment, readRule, bind_assoc, pure_bind]
  | module kind =>
    refine ⟨fun tree => do
        let module ← convertModule kind.form source.name (← Convert.itemAt 1 tree)
        return (module, ← Convert.itemAt 2 tree),
      fun result => do return (result.1, some (← informationOf result.2)),
      inferInstance, fun result => (informationOf_onlyWrites _).bind fun _ => .pure _, fun parser => ?_⟩
    simp only [parse, parseModule, readRule, bind_assoc, pure_bind]

/-- What is left behind when some texts were asked for, one after the other, and some lines
written. -/
structure Reading.Grows (s : Reading) (asked : List Question) (lines : List LogLine)
    (s' : Reading) : Prop where
  reads : s'.reads.map Prod.fst = s.reads.map Prod.fst ++ asked.map Question.rule
  logs : s'.logs = s.logs ++ lines

/-- How a call goes, whatever the reader writes. -/
theorem Task.parse_traced (parser : Nat) (task : Task) (source : Source) (reader : Reader)
    (s : Reading) : ∃ outcome asked own,
      (NoneFails reader asked ∨ FailsLast reader asked outcome ∧ own = []) ∧
        ∀ write, ∃ s', perform (task.parse parser source) (reader.writing write) s = (outcome, s') ∧
          s.Grows asked (asked.flatMap write ++ own) s' := by
  obtain ⟨inside, finish, silent, writes, split⟩ := task.parse_split source
  rw [split parser]
  rcases content : source.content with message | text
  · -- There is no text to ask for.
    refine ⟨.error (.reported ("Internal: " ++ message)), [], [], .inl (List.forall_mem_nil _),
      fun write => ?_⟩
    refine ⟨{ s with parser := parser, source := some source.name }, perform_bind_error ?_ _,
      ⟨by simp, by simp⟩⟩
    simp [readSource, content, perform_bind]
  have asks := fun write => @perform_ask reader source text content parser task.readRule write s
  have surfaces : _ ∨ FailsLast reader _ (reader.reply task.readRule text).outcome.result :=
    ask_surfaces ⟨task.readRule, text⟩
  generalize (reader.reply task.readRule text).outcome.result = answer at asks surfaces
  rcases answer with e | tree
  · refine ⟨.error e, [⟨task.readRule, text⟩], [],
      surfaces.imp_right fun fails => ⟨fails.cast, rfl⟩, fun write => ?_⟩
    exact ⟨_, perform_bind_error (asks write) _, ⟨by simp [Reading.extend], by simp [Reading.extend]⟩⟩
  have read := noneFails_of_ok surfaces
  obtain ⟨outcome, asked, surfaces, ran⟩ := (silent tree).traced reader
  have ran := fun write => ran write ({ s with parser := parser, source := some source.name }.extend
    [(task.readRule, source.origin)] (write ⟨task.readRule, text⟩)) rfl
  cases outcome with
  | error e =>
    refine ⟨.error e, [⟨task.readRule, text⟩] ++ asked, [], ?_, fun write => ?_⟩
    · exact surfaces.imp read.append fun fails => ⟨fails.cast.after read, rfl⟩
    · obtain ⟨_, _, ran⟩ := ran write
      refine ⟨_, (perform_bind_ok (asks write) _).trans (perform_bind_error ran _), ⟨?_, ?_⟩⟩
      · simp [Reading.extend, Question.inner, Function.comp_def]
      · simp [Reading.extend]
  | ok result =>
    obtain ⟨value, own, wrote⟩ := writes result
    refine ⟨.ok value, [⟨task.readRule, text⟩] ++ asked, own,
      .inl (read.append (noneFails_of_ok surfaces)), fun write => ?_⟩
    obtain ⟨_, _, ran⟩ := ran write
    refine ⟨_, (perform_bind_ok (asks write) _).trans ((perform_bind_ok ran _).trans (wrote _ _)),
      ⟨?_, ?_⟩⟩
    · simp [Reading.extend, Question.inner, Function.comp_def]
    · simp [Reading.extend]

/-- The texts that a call asks for are the same whatever the reader writes. If one of them is not
read, it is the last that is asked for, the call fails with its message, and nothing is left behind
but the record of reading and the lines in the log. -/
theorem failed_read_ends_call (reader : Reader) (call : Call) (w : Workspace) :
    ∃ asked, Asks (call.task.parse call.parser call.source) reader w.reading asked ∧
      (∀ asked', Asks (call.task.parse call.parser call.source) reader w.reading asked' →
        asked' = asked) ∧
      ∀ q ∈ asked, ∀ message, reader.failure? q = some message →
        ∃ before, asked = before ++ [q] ∧ (∀ p ∈ before, reader.failure? p = none) ∧
          ∃ s', perform (settle (obtain call)) reader w =
              (.ok (.error (.reported message)), { w with reading := s' }) ∧
            w.reading.Grows asked (asked.flatMap reader.lines ++ [⟨.error, message⟩]) s' := by
  obtain ⟨outcome, asked, own, surfaces, ran⟩ :=
    call.task.parse_traced call.parser call.source reader w.reading
  have asks : Asks (call.task.parse call.parser call.source) reader w.reading asked := by
    refine ⟨own, fun write => ?_⟩
    obtain ⟨s', ran, grows⟩ := ran write
    rw [ran]
    exact grows.logs
  refine ⟨asked, asks, fun asked' asks' => asks.unique asks', fun q inside message fails => ?_⟩
  rcases surfaces with read | ⟨⟨before, last, message', rfl, read, lastFails, rfl⟩, rfl⟩
  · simp [read q inside] at fails
  have isLast : q = last := by
    rcases List.mem_append.mp inside with earlier | isLast
    · simp [read q earlier] at fails
    · exact List.mem_singleton.mp isLast
  subst isLast
  cases lastFails.symm.trans fails
  obtain ⟨s', ran, grows⟩ := ran reader.lines
  rw [Reader.writing_lines] at ran
  refine ⟨before, rfl, read, { s' with logs := s'.logs ++ [⟨.error, message⟩] }, ?_, ⟨grows.reads, ?_⟩⟩
  · rw [perform_settle, obtain, perform_bind, perform_ofConversion, ran]
    rfl
  · rw [grows.logs, List.append_nil, List.append_assoc]

/-- The reader breaks down at a text inside a text inside the source. -/
theorem inner_breakdown_ends_call :
    let call : Call := ⟨1, .fragment .operatorBlock, .ofText "outer" "a"⟩
    let asked := ["outer", "inner", "core"].map (Question.mk .operatorBlock)
    Asks (call.task.parse call.parser call.source) brittleReader {} asked ∧
      brittleReader.failure? ⟨.operatorBlock, "core"⟩ = some "Internal: stopped" ∧
      ∃ s', perform (settle (obtain call)) brittleReader {} =
          (.ok (.error (.reported "Internal: stopped")), { reading := s' }) ∧
        s'.reads.map Prod.fst = List.replicate 3 .operatorBlock ∧
        s'.logs = [⟨.error, "stopped"⟩, ⟨.error, "Internal: stopped"⟩] := by
  intro call asked
  have asks : Asks (call.task.parse call.parser call.source) brittleReader {} asked := by
    refine ⟨[], fun write => ?_⟩
    have lines :
      (perform (call.task.parse call.parser call.source) (brittleReader.writing write) {}).2.logs =
        [] ++ write ⟨.operatorBlock, "outer"⟩ ++ write ⟨.operatorBlock, "inner"⟩ ++
          write ⟨.operatorBlock, "core"⟩ := rfl
    simp [lines, asked]
  obtain ⟨asked', _, unique, ends⟩ := failed_read_ends_call brittleReader call {}
  cases unique asked asks
  obtain ⟨_, _, _, s', ran, grows⟩ :=
    ends ⟨.operatorBlock, "core"⟩ (by decide) "Internal: stopped" (by decide)
  exact ⟨asks, by decide, s', ran, grows.reads, grows.logs⟩

end SwanModel
