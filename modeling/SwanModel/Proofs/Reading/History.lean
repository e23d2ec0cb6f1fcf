import SwanModel.Proofs.Convert.Repeated

/-!
# Parsing does not depend on what was parsed before

All parsers share one record of the parser and the source that read last. While a source with a name
is being converted the values that are written are always its own.
-/

namespace SwanModel

variable {α β : Type}

namespace Reading

/-- What is left behind when some more is read and logged and no other source becomes the current
one. -/
def extend (s : Reading) (reads : List (ReadRule × String)) (logs : List LogLine) : Reading :=
  { s with reads := s.reads ++ reads, logs := s.logs ++ logs }

@[simp] theorem extend_nil (s : Reading) : s.extend [] [] = s := by
  simp [extend]

@[simp] theorem extend_extend (s : Reading) (reads reads' : List (ReadRule × String))
    (logs logs' : List LogLine) :
    (s.extend reads logs).extend reads' logs' = s.extend (reads ++ reads') (logs ++ logs') := by
  simp [extend]

end Reading

theorem Source.name_ofText {name : String} (named : name ≠ "") (text : String) :
    (Source.ofText text name).name = name := by
  have nonempty : name.isEmpty = false := by simpa using named
  simp [Source.ofText, nonempty]

/-- The name of a source has no part in how reading it ends. -/
theorem readSource_named (reader : Reader) (rule : ReadRule) (origin : String)
    (content : Except String String) :
      ∃ outcome reads logs, ∀ name parser s,
        perform (readSource parser rule ⟨name, origin, content⟩) reader s =
          (outcome, { s with parser := parser, source := some name }.extend reads logs) := by
  rcases content with message | text
  · refine ⟨.error (.reported ("Internal: " ++ message)), [], [], fun name parser s => ?_⟩
    simp [readSource, perform_bind]
  · rcases replied : (reader.reply rule text).outcome with tree | message | message
    · refine ⟨.ok tree, [(rule, origin)], (reader.reply rule text).logs, fun name parser s => ?_⟩
      exact perform_readSource rfl replied s
    · refine ⟨.error (.reported ("Parser: " ++ message)), [(rule, origin)],
        (reader.reply rule text).logs, ?_⟩
      intro name parser s
      simp only [readSource, perform_bind, perform_modify, perform_read, replied, perform_throw]
      rfl
    · refine ⟨.error (.reported ("Internal: " ++ message)), [(rule, origin)],
        (reader.reply rule text).logs, ?_⟩
      intro name parser s
      simp only [readSource, perform_bind, perform_modify, perform_read, replied, perform_throw]
      rfl

theorem readSource_spec (reader : Reader) (rule : ReadRule) (source : Source) :
    ∃ outcome reads logs, ∀ parser s, perform (readSource parser rule source) reader s =
      (outcome, { s with parser := parser, source := some source.name }.extend reads logs) := by
  obtain ⟨outcome, reads, logs, read⟩ := readSource_named reader rule source.origin source.content
  exact ⟨outcome, reads, logs, read source.name⟩

/-! ### Conversion inside a source -/

variable {reader : Reader} {name : String}

/-- A conversion that does not depend on which source is the current one: how it ends, what it reads
and what it logs are always the same. A source is current behind it too, and the same one if it has
a name. -/
def Timeless (x : Conversion α) (reader : Reader) : Prop :=
  ∃ outcome reads logs, ∀ (s : Reading) (name : String), s.source = some name →
    ∃ name', (name ≠ "" → name' = name) ∧
      perform x reader s = (outcome, { s with source := some name' }.extend reads logs)

theorem timeless_of_perform {x : Conversion α} (outcome : Except Error α) (logs : List LogLine)
    (same : ∀ s, perform x reader s = (outcome, s.extend [] logs)) : Timeless x reader := by
  refine ⟨outcome, [], logs, fun s name current => ⟨name, fun _ => rfl, ?_⟩⟩
  rw [same s, ← current]

theorem timeless_reread (rule : ReadRule) (text : Term) : Timeless (reread rule text) reader := by
  rcases printed : text.print with e | code
  · refine ⟨.error e, [], [], fun s name current => ⟨name, fun _ => rfl, ?_⟩⟩
    rw [reread, perform_bind_ok (perform_currentSource current reader), printed,
      Reading.extend_nil, ← current]
    rfl
  · obtain ⟨outcome, reads, logs, read⟩ := readSource_named reader rule "<string>" (.ok code)
    refine ⟨outcome, reads, logs,
      fun s name current => ⟨(Source.ofText code name).name, fun named => ?_, ?_⟩⟩
    · exact Source.name_ofText named code
    · rw [reread, perform_bind_ok (perform_currentSource current reader), printed]
      exact read _ s.parser s

theorem Timeless.bind {x : Conversion α} {f : α → Conversion β} (first : Timeless x reader)
    (rest : ∀ {s t a}, perform x reader s = (.ok a, t) → Timeless (f a) reader) :
    Timeless (x >>= f) reader := by
  obtain ⟨outcome, reads, logs, ran⟩ := first
  cases outcome with
  | error e =>
    refine ⟨.error e, reads, logs, fun s name current => ?_⟩
    obtain ⟨name', kept, ran⟩ := ran s name current
    exact ⟨name', kept, perform_bind_error ran f⟩
  | ok a =>
    -- The value is the same under every source, so what follows is known from any of them.
    obtain ⟨_, -, sample⟩ := ran { source := some "" } "" rfl
    obtain ⟨outcome', reads', logs', ran'⟩ := rest sample
    refine ⟨outcome', reads ++ reads', logs ++ logs', fun s name current => ?_⟩
    obtain ⟨name', kept, ran⟩ := ran s name current
    obtain ⟨name'', kept', ran'⟩ := ran' ({ s with source := some name' }.extend reads logs) name' rfl
    refine ⟨name'', fun named => ?_, ?_⟩
    · have same := kept named
      exact (kept' (same ▸ named)).trans same
    · rw [perform_bind_ok ran, ran']
      simp [Reading.extend]

section
variable [Carrier α] {x : Conversion α}

theorem Composed.timeless (composed : Composed x) (reader : Reader) : Timeless x reader := by
  induction composed with
  | @pure _ _ a => exact timeless_of_perform (.ok a) [] fun s => by simp
  | throw e => exact timeless_of_perform (.error e) [] fun s => by simp
  | reader => exact timeless_of_perform (.ok reader) [] fun s => by simp
  | again rule text => exact timeless_reread rule text
  | log message =>
    refine timeless_of_perform (.ok ⟨⟩) [⟨.error, "SwanLoader: " ++ message⟩] fun s => ?_
    simp [logLoader, Reading.extend]
  | bind _ _ first rest => exact first.bind fun gave => rest _ ⟨reader, _, _, gave⟩

theorem Composed.source_isSome (composed : Composed x) (reader : Reader) {s : Reading}
    (current : s.source.isSome) : (perform x reader s).2.source.isSome := by
  obtain ⟨_, _, _, ran⟩ := composed.timeless reader
  obtain ⟨name, current⟩ := Option.isSome_iff_exists.mp current
  obtain ⟨_, _, ran⟩ := ran s name current
  rw [ran]
  rfl

end

/-- A conversion inside a source: how it ends, what it reads and what it logs are the same from
every state in which the source is the current one, and the source and its parser are the current
ones again behind it. -/
def Contained (x : Conversion α) (reader : Reader) (name : String) : Prop :=
  ∃ outcome reads logs, ∀ s : Reading, s.source = some name →
    perform x reader s = (outcome, s.extend reads logs)

theorem Composed.contained [Carrier α] {x : Conversion α} (composed : Composed x) (reader : Reader)
    (named : name ≠ "") : Contained x reader name := by
  obtain ⟨outcome, reads, logs, ran⟩ := composed.timeless reader
  refine ⟨outcome, reads, logs, fun s current => ?_⟩
  obtain ⟨name', kept, ran⟩ := ran s name current
  rw [ran, kept named, ← current]

/-! ### Calls of parsers -/

inductive Task where
  | fragment (part : Fragment)
  | module (kind : ModuleKind)
deriving DecidableEq

namespace Task

def readRule : Task → ReadRule
  | .fragment part => part.readRule
  | .module kind => kind.readRule

/-- Has a source parsed: a term, and for a module the information behind it. -/
def parse (parser : Nat) (task : Task) (source : Source) : Conversion (Term × Option Information) :=
  match task with
  | .fragment part => do return (← parseFragment part source parser, none)
  | .module kind => do
    let result ← parseModule kind source parser
    return (result.1, some result.2)

/-- A call reads its source and goes on inside it. -/
theorem parse_eq (task : Task) (source : Source) :
    ∃ inside : ParseTree → Conversion (Term × Option Information), (∀ tree, Composed (inside tree)) ∧
      ∀ parser, task.parse parser source = readSource parser task.readRule source >>= inside := by
  cases task with
  | fragment part =>
    refine ⟨fun tree => do return (← convert part.rule tree, none), inferInstance, fun parser => ?_⟩
    simp only [parse, parseFragment, readRule, bind_assoc]
  | module kind =>
    refine ⟨fun tree => do
      let module ← convertModule kind.form source.name (← Convert.itemAt 1 tree)
      let information ← informationOf (← Convert.itemAt 2 tree)
      return (module, some information), inferInstance, fun parser => ?_⟩
    simp only [parse, parseModule, readRule, bind_assoc, pure_bind]

/-- How a call on a source with a name ends, what it reads and what it logs are always the same, and
behind it the parser and the source are the current ones. -/
theorem parse_named (task : Task) {source : Source} (named : source.name ≠ "") (reader : Reader) :
    ∃ outcome reads logs, ∀ parser s, perform (task.parse parser source) reader s =
      (outcome, { s with parser := parser, source := some source.name }.extend reads logs) := by
  obtain ⟨inside, composed, split⟩ := task.parse_eq source
  obtain ⟨outcome, reads, logs, ran⟩ := readSource_spec reader task.readRule source
  cases outcome with
  | error e =>
    refine ⟨.error e, reads, logs, fun parser s => ?_⟩
    rw [split parser, perform_bind_error (ran parser s) inside]
  | ok tree =>
    obtain ⟨outcome', reads', logs', ran'⟩ := (composed tree).contained reader named
    refine ⟨outcome', reads ++ reads', logs ++ logs', fun parser s => ?_⟩
    rw [split parser, perform_bind_ok (ran parser s) inside, ran' _ rfl, Reading.extend_extend]

/-- Behind a call a source is current, also when it fails. -/
theorem parse_source_isSome (parser : Nat) (task : Task) (source : Source) (reader : Reader)
    (s : Reading) : (perform (task.parse parser source) reader s).2.source.isSome := by
  obtain ⟨inside, composed, split⟩ := task.parse_eq source
  obtain ⟨outcome, reads, logs, ran⟩ := readSource_spec reader task.readRule source
  rw [split parser]
  cases outcome with
  | error e =>
    rw [perform_bind_error (ran parser s) inside]
    rfl
  | ok tree =>
    rw [perform_bind_ok (ran parser s) inside]
    exact (composed tree).source_isSome reader rfl

end Task

structure Call where
  parser : Nat
  task : Task
  source : Source

/-- What calls leave behind, each whether it fails or not. -/
def Reading.after (reader : Reader) (calls : List Call) : Reading :=
  calls.foldl (fun s call => (perform (call.task.parse call.parser call.source) reader s).2) {}

/-- What a parser makes of a source with a name, what is read for it and what is logged do not
depend on the calls before, whichever parser they went to; the source is the current one behind the
call. -/
theorem parsing_ignores_history (reader : Reader) (task : Task) (source : Source)
    (named : source.name ≠ "") : ∃ outcome reads logs, ∀ (parser : Nat) (earlier : List Call),
      perform (task.parse parser source) reader (Reading.after reader earlier) =
        (outcome, { parser := parser
                    source := some source.name
                    reads := (Reading.after reader earlier).reads ++ reads
                    logs := (Reading.after reader earlier).logs ++ logs }) := by
  obtain ⟨outcome, reads, logs, ran⟩ := task.parse_named named reader
  exact ⟨outcome, reads, logs, fun parser earlier => ran parser (Reading.after reader earlier)⟩

def blockOf (text : String) : ParseTree :=
  .node none [] [("OIBCalled", .node (some "CallOperator") [.node none [] [("CallSize", .list []),
    ("CallPragmas", .list []),
    ("CallOp", .node (some "ORawPrefix") [.protectedText (.text text) (.text "text")] [])]] [])]

def brittleReader : Reader :=
  .ofTable [((.operatorBlock, "outer"), ⟨[], .tree (blockOf "inner")⟩),
    ((.operatorBlock, "inner"), ⟨[], .tree (blockOf "core")⟩),
    ((.operatorBlock, "core"), ⟨[⟨.error, "stopped"⟩], .crashed "stopped"⟩)]

theorem breakdown_ignores_history :
    (Source.ofText "outer" "a").name ≠ "" ∧
    (∃ outcome reads logs, ∀ (parser : Nat) (earlier : List Call),
      perform (Task.parse parser (.fragment .operatorBlock) (.ofText "outer" "a")) brittleReader
          (Reading.after brittleReader earlier) =
        (outcome, { parser := parser
                    source := some "a"
                    reads := (Reading.after brittleReader earlier).reads ++ reads
                    logs := (Reading.after brittleReader earlier).logs ++ logs })) ∧
    perform (Task.parse 1 (.fragment .operatorBlock) (.ofText "outer" "a")) brittleReader
        (Reading.after brittleReader [⟨2, .fragment .operatorBlock, .ofText "core" "b"⟩]) =
      (.error (.reported "Internal: stopped"),
        { parser := 1
          source := some "a"
          reads := List.replicate 4 (.operatorBlock, "<string>")
          logs := List.replicate 2 ⟨.error, "stopped"⟩ }) :=
  ⟨by decide, parsing_ignores_history brittleReader (.fragment .operatorBlock) (.ofText "outer"
    "a") (by decide), by rfl⟩

end SwanModel
