import StreamRpc.Proofs.Server.Ownership
import StreamRpc.Proofs.World.InOrder

/-! # Who has which sources

The sources that the tasks of a server got are theirs: none of them came twice, and none of them is
still in an item of another source.

* `World.Run.owned`   the sources that tasks got are theirs
-/

namespace StreamRpc

namespace World

open Sources (Owned)

variable {config : ServerConfig} {w₀ w w' : World} {tr : WorldTrace} {s : Server}

/-- What only feeds channels changes no owner. -/
private theorem Feeds.owned {sources sources' : Sources} (feeds : Feeds sources sources')
    {owned : List SourceRef} (h : Owned owned sources) : Owned owned sources' := by
  cases feeds with
  | publish p v => exact (h.build v).publish p
  | fail p f => exact h.finish rfl p
  | complete p => exact h.finish rfl p
  | drop p => exact h.withPublishers _
  | clone p => exact h.withPublishers _

/-- Accepting an envelope gains no source. -/
private theorem accept_gains (st : Stage) (e : Envelope) :
    (st.acceptEvents e).gains = [] ∧ (st.accept e).sources = st.sources := by
  constructor
  · unfold Stage.acceptEvents
    split <;> rfl
  · unfold Stage.accept
    split <;> rfl

/-- What a step does leaves sources with their owners, and gives those that come out of items to the
    tasks that asked for them. -/
private theorem Acts.owned {es : ServerTrace} (acts : w.Acts s es w') {owned : List SourceRef}
    (h : Owned owned w.sources) : Owned (owned ++ es.gains) w'.sources := by
  have hsame : Owned (owned ++ []) w.sources := by rwa [List.append_nil]
  -- Tasks take sources out of items, and a feed puts new ones into channels; nothing else touches
  -- sources.
  cases acts with
  | apart servers sources retiring =>
    rw [sources]
    exact hsame
  | serve go =>
    obtain ⟨inbox, -, ⟨e, t, -, hes, rfl⟩ | ⟨t, -, hes, rfl⟩⟩ := Stage.serve_eq go
    · rw [hes]
      obtain ⟨hgains, hsources⟩ := accept_gains { w.stage s with transport := t } e
      have hevents : Stage.acceptEvents (w.stage s) e =
          Stage.acceptEvents { w.stage s with transport := t } e := rfl
      rw [hevents, hgains]
      show Owned _ (Stage.accept { w.stage s with transport := t } e).sources
      rw [hsources]
      exact hsame
    · rw [hes]
      exact hsame
  | depart go =>
    obtain ⟨watcher, client, t, -, -, hes, rfl⟩ := Stage.depart_eq go
    rw [hes]
    exact hsame
  | handle found go => exact Stage.owned_handle h found go
  | forward found go => exact Stage.owned_forward h found go
  | feed feeds =>
    rw [ServerTrace.gains_nil, List.append_nil]
    exact feeds.owned h

/-- The sources that tasks got are theirs. -/
theorem Run.owned (run : Run config w₀ tr w) : Owned tr.server.gains w.sources := by
  induction run with
  | start up =>
    obtain ⟨s, t', -, -, rfl⟩ := launch_alone up
    exact Sources.owned_empty
  | step run next ih =>
    obtain ⟨s, alone, -⟩ := run.server
    rcases next.acts alone with acts | ⟨router, rfl, rfl⟩
    · rw [WorldTrace.server_append, ServerTrace.gains_append]
      exact acts.owned ih
    -- Changing the methods changes no sources.
    · rw [List.append_nil]
      exact ih

end World

end StreamRpc
