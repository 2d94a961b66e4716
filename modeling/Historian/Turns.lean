import Historian.World

/-!
Running programs together by turns. Every thread in its turn goes on until it has to wait: for the
catalog, for an engine that takes its time, or for a lock. The rounds end when no thread can go on.
They end because no thread can take steps for ever.
-/
namespace Historian

namespace Thread

variable {ε α : Type}

/-- What a thread can be after one step. -/
inductive After : Thread α → Thread α → Prop
  | answered (r : Request) (next : r.Answer → Program α) (a : r.Answer) :
    After (.running (next a)) (.running (.ask r next))
  | queued (key : LockKey) (next : Nat → Program α) (ticket : Nat) :
    After (.waiting ticket next) (.running (.ask (.acquire key) next))
  | granted (ticket : Nat) (next : Nat → Program α) :
    After (.running (next ticket)) (.waiting ticket next)

theorem acc_running (p : Program α) : Acc After (.running p : Thread α) := by
  induction p with
  | done a => exact ⟨_, fun _ h => nomatch h⟩
  | ask r next ih =>
    refine ⟨_, fun t h => ?_⟩
    cases h with
    | answered _ _ a => exact ih a
    | queued key _ ticket =>
      refine ⟨_, fun t h => ?_⟩
      cases h
      exact ih ticket

theorem wellFounded_after : WellFounded (@After α) :=
  ⟨fun
    | .running p => acc_running p
    | .waiting _ _ => ⟨_, fun _ h => by cases h; exact acc_running _⟩⟩

/-- What a thread can be after one step or more. -/
abbrev Later : Thread α → Thread α → Prop := Relation.TransGen After

theorem wellFounded_later : WellFounded (@Later α) := wellFounded_after.transGen

variable [Engine.Endpoint ε]

/-- Whether a request lets other threads go on before it is answered. -/
def pauses (w : World ε) : Request → Bool
  | .catalog op => (World.takeFault op.name w.catalogFaults).isNone
  | .execute .. | .describe .. => 0 < Engine.Endpoint.latency w.engine
  | .wait millis => 0 < millis
  | _ => false

/-- Goes on with a program until it has to wait. -/
def goOn : Program α → World ε → Thread α × World ε
  | .done a, w => (.running (.done a), w)
  | .ask (.acquire key) next, w =>
    let (ticket, w) := w.answer (.acquire key)
    if w.locks.holds ticket then goOn (next ticket) w else (.waiting ticket next, w)
  | .ask r next, w =>
    let (a, w') := w.answer r
    if pauses w r then (.running (next a), w') else goOn (next a) w'

theorem goOn_later (p : Program α) (w : World ε) :
    (goOn p w).1 = .running p ∨ Later (goOn p w).1 (.running p) := by
  induction p generalizing w with
  | done a => exact .inl rfl
  | ask r next ih => exact .inr (child r next ih w)
where
  child (r : Request) (next : r.Answer → Program α)
      (ih : ∀ a (w : World ε),
        (goOn (next a) w).1 = .running (next a) ∨ Later (goOn (next a) w).1 (.running (next a)))
      (w : World ε) : Later (goOn (.ask r next) w).1 (.running (.ask r next)) := by
    have step (a : r.Answer) (w : World ε) :
        Later (goOn (next a) w).1 (.running (.ask r next)) := by
      rcases ih a w with h | h
      · rw [h]; exact .single (.answered r next a)
      · exact .trans h (.single (.answered r next a))
    cases r with
    | acquire key =>
      simp only [goOn]
      split
      · exact step _ _
      · exact .single (.queued key next _)
    | _ =>
      simp only [goOn]
      split
      · exact .single (.answered _ next _)
      · exact step _ _

/-- The turn of a thread, if it can take one. -/
def turn (t : Thread α) (w : World ε) : Option (Thread α × World ε) :=
  match t with
  | .running (.done _) => none
  | .running p => some (goOn p w)
  | .waiting ticket next => if w.locks.holds ticket then some (goOn (next ticket) w) else none

theorem turn_later {t : Thread α} {w : World ε} {r : Thread α × World ε} (h : t.turn w = some r) :
    Later r.1 t := by
  match t with
  | .running (.done _) => simp [turn] at h
  | .running (.ask q next) =>
    simp only [turn, Option.some.injEq] at h
    rw [← h]
    exact goOn_later.child q next (fun a w => goOn_later (next a) w) w
  | .waiting ticket next =>
    simp only [turn] at h
    split at h <;> simp only [Option.some.injEq, reduceCtorEq] at h
    rw [← h]
    rcases goOn_later (next ticket) w with this | this
    · rw [this]; exact .single (.granted ticket next)
    · exact .trans this (.single (.granted ticket next))

end Thread

/-- Threads of which some went on and the others are as they were. -/
inductive Round : List (Thread α) → List (Thread α) → Prop
  | head {t t' : Thread α} {ts : List (Thread α)} : t'.Later t → Round (t' :: ts) (t :: ts)
  | tail {t : Thread α} {ts ts' : List (Thread α)} : Round ts' ts → Round (t :: ts') (t :: ts)
  | both {t t' : Thread α} {ts ts' : List (Thread α)} :
    t'.Later t → Round ts' ts → Round (t' :: ts') (t :: ts)

namespace Round

theorem wellFounded : WellFounded (@Round α) := by
  refine ⟨fun ts => ?_⟩
  induction ts with
  | nil => exact ⟨_, fun _ h => nomatch h⟩
  | cons t ts ih =>
    induction Thread.wellFounded_later.apply t generalizing ts with
    | intro t _ iht =>
      induction ih with
      | intro ts hts ihts =>
        refine ⟨_, fun r h => ?_⟩
        cases h with
        | head h => exact iht _ h ts ⟨_, hts⟩
        | tail h => exact ihts _ h
        | both h h' => exact iht _ h _ (hts _ h')

instance : WellFoundedRelation (List (Thread α)) := ⟨Round, wellFounded⟩

variable {ε α : Type} [Engine.Endpoint ε]

/-- One turn of every thread that can take one; none if there is no such thread. -/
def play : List (Thread α) → World ε → Option (List (Thread α) × World ε)
  | [], _ => none
  | t :: ts, w =>
    match t.turn w with
    | none => (play ts w).map fun r => (t :: r.1, r.2)
    | some (t', w) =>
      match play ts w with
      | none => some (t' :: ts, w)
      | some (ts', w) => some (t' :: ts', w)

theorem of_play {ts : List (Thread α)} {w : World ε} {r : List (Thread α) × World ε}
    (h : play ts w = some r) : Round r.1 ts := by
  induction ts generalizing w r with
  | nil => simp [play] at h
  | cons t ts ih =>
    simp only [play] at h
    split at h
    · obtain ⟨q, hq, rfl⟩ := Option.map_eq_some_iff.1 h
      exact .tail (ih hq)
    · rename_i ht
      have later := Thread.turn_later ht
      split at h <;> simp only [Option.some.injEq] at h <;> subst h
      · exact .head later
      · exact .both later (ih ‹_›)

end Round

variable {ε α : Type} [Engine.Endpoint ε]

/-- Plays rounds until no thread can go on. -/
def playRounds (ts : List (Thread α)) (w : World ε) : List (Thread α) × World ε :=
  match h : Round.play ts w with
  | none => (ts, w)
  | some r =>
    have := Round.of_play h
    playRounds r.1 r.2
termination_by ts

/-- Runs programs together; a program that is kept waiting for ever has no result. -/
def runTogether (ps : List (Program α)) (w : World ε) : List (Option α) × World ε :=
  let (ts, w) := playRounds (ps.map .running) w
  (ts.map Thread.result?, w)

end Historian
