import SwanModel.Proofs.Convert.Composed

/-!
# Conversions give the same again

What a conversion gives does not depend on what was read and logged before it, but for whether some
source was read.
-/

namespace SwanModel

variable {reader : Reader} {s t : Reading}

variable {α : Type} {parser : Nat}

theorem perform_readSource {rule : ReadRule} {source : Source} {text : String} {tree : ParseTree}
    (content : source.content = .ok text) (replied : (reader.reply rule text).outcome = .tree tree)
    (s : Reading) :
    perform (readSource parser rule source) reader s =
      (.ok tree, { parser := parser, source := some source.name,
                   reads := s.reads ++ [(rule, source.origin)],
                   logs := s.logs ++ (reader.reply rule text).logs }) := by
  simp only [readSource, content, perform_bind, perform_modify, perform_read, replied, perform_pure]

theorem readSource_ok {rule : ReadRule} {source : Source} {tree : ParseTree}
    (h : perform (readSource parser rule source) reader s = (.ok tree, t)) :
    ∃ text, source.content = .ok text ∧ (reader.reply rule text).outcome = .tree tree := by
  unfold readSource at h
  obtain ⟨_, _, _, h⟩ := bind_ok h
  split at h
  · cases h
  · rename_i text content
    obtain ⟨_, _, asked, h⟩ := bind_ok h
    cases asked
    obtain ⟨_, _, _, h⟩ := bind_ok h
    split at h
    · rename_i replied
      cases h
      exact ⟨text, content, replied⟩
    · cases h
    · cases h

/-- What succeeds once gives the same value again from every state in which a source is current, or
from every state at all if there was no current source the first time. -/
def Repeatable (x : Conversion α) : Prop :=
  ∀ {reader s t a} (s' : Reading), perform x reader s = (.ok a, t) →
    (s.source.isSome → s'.source.isSome) → ∃ t', perform x reader s' = (.ok a, t') ∧
      (t.source.isSome → t'.source.isSome)

theorem currentSource_ok {name : String}
    (h : perform currentSource reader s = (.ok name, t)) : s.source = some name := by
  unfold currentSource at h
  obtain ⟨_, _, got, h⟩ := bind_ok h
  cases got
  split at h
  · rename_i current
    cases h
    exact current
  · cases h

theorem perform_currentSource {name : String} (current : s.source = some name) (reader : Reader) :
    perform currentSource reader s = (.ok name, s) := by
  simp only [currentSource, perform_bind, perform_get, current, perform_pure]

theorem ofExcept_ok {x : Except Error α} {a : α}
    (h : perform (Convert.ofExcept x) reader s = (.ok a, t)) : x = .ok a ∧ t = s := by
  cases x with
  | ok b => cases h; exact ⟨rfl, rfl⟩
  | error e => cases h

theorem repeatable_reread (rule : ReadRule) (text : Term) : Repeatable (reread rule text) := by
  intro reader s t tree s' h carried
  obtain ⟨name, _, current, h⟩ := bind_ok h
  obtain ⟨code, _, printed, h⟩ := bind_ok h
  obtain ⟨printed, _⟩ := ofExcept_ok printed
  obtain ⟨_, _, _, h⟩ := bind_ok h
  obtain ⟨read, content, replied⟩ := readSource_ok h
  -- The text is the same under the name of the other current source.
  obtain ⟨name', current'⟩ :=
    Option.isSome_iff_exists.mp (carried (by rw [currentSource_ok current]; rfl))
  have content' : (Source.ofText code name').content = .ok read := content
  have same : perform (reread rule text) reader s' =
      perform (readSource s'.parser rule (Source.ofText code name')) reader s' := by
    rw [reread, perform_bind_ok (perform_currentSource current' reader), printed]
    rfl
  exact ⟨_, same.trans (perform_readSource content' replied s'), fun _ => rfl⟩

/-- Every conversion gives the same again. -/
theorem Composed.repeatable [Carrier α] {x : Conversion α} (composed : Composed x) : Repeatable x := by
  induction composed with
  | pure => intro _ s t _ s' h carried; cases h; exact ⟨s', rfl, carried⟩
  | throw e => intro _ _ _ _ _ h; cases h
  | reader => intro _ s t _ s' h carried; cases h; exact ⟨s', rfl, carried⟩
  | again rule text => exact repeatable_reread rule text
  | log message => intro _ s t _ s' h carried; cases h; exact ⟨_, rfl, carried⟩
  | bind _ _ first rest =>
    intro reader s t b s' h carried
    obtain ⟨a, u, ran, h⟩ := bind_ok h
    obtain ⟨u', ran', carried⟩ := first s' ran carried
    obtain ⟨t', h', carried⟩ := rest a ⟨reader, s, u, ran⟩ u' h carried
    exact ⟨t', (perform_bind_ok ran' _).trans h', carried⟩

end SwanModel
