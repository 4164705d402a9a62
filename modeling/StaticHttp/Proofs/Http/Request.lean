import StaticHttp.Http.Request

/-!
# What reading a request leaves alone

Reading takes steps off a connection's script and counts its calls. It writes nothing, flushes
nothing and closes nothing: the connection differs in its reads alone (`reads_readRequest`).
-/

namespace StaticHttp

namespace Connection

/-- Nothing but reading has happened on the way from one connection to the other. -/
def Reads (c c' : Connection) : Prop :=
  ∃ reads count, c' = { c with reads, log := { c.log with reads := count } }

theorem Reads.trans {c c' c'' : Connection} (first : c.Reads c') (rest : c'.Reads c'') :
    c.Reads c'' := by
  obtain ⟨_, _, rfl⟩ := first
  obtain ⟨reads, count, rfl⟩ := rest
  exact ⟨reads, count, rfl⟩

theorem reads_read (limit : Nat) (c : Connection) : c.Reads (c.read limit).2 := by
  unfold read
  split <;> exact ⟨_, _, rfl⟩

theorem reads_readRetrying (limit : Nat) (c : Connection) : c.Reads (c.readRetrying limit).2 :=
  .trans ⟨_, _, rfl⟩ (reads_read limit c.skipInterruptions)

theorem reads_drain (c : Connection) : c.Reads (drain c).2 := by
  fun_induction drain c with
  | case1 c c' h | case2 c _ c' h | case3 c _ c' h =>
    have first := reads_readRetrying bufferSize c
    rwa [h] at first
  | case4 c _ c' h _ _ ih =>
    have first := reads_readRetrying bufferSize c
    rw [h] at first
    exact first.trans ih

theorem reads_readRequest (c : Connection) : c.Reads (readRequest c).2 := by
  have first := reads_readRetrying bufferSize c
  unfold readRequest
  split <;> rename_i h <;> rw [h] at first
  · exact first
  · exact first
  · exact first
  · next c' =>
    split
    · exact first
    · split
      · exact first
      · have rest := reads_drain c'
        split <;> rename_i hdrain <;> rw [hdrain] at rest <;> exact first.trans rest

end Connection

end StaticHttp
