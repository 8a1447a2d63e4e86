import DentryWatch.Proofs.Ring.Feeding
import DentryWatch.Proofs.Ring.Order

/-!
# The one reader of a ring

Records are delivered to whoever holds the reader. The ring hands it out once, and
dropping it does not bring it back. A run is logged moment by moment: what was
asked, what the answer was and how deep the ring was then.
-/

namespace DentryWatch

def RingStep.reads : RingStep → Bool
  | .pop | .popBatch _ => true
  | .reserve | .fill _ _ | .commit _ | .discard _ | .drop _ => false

inductive SharedStep where
  | use (action : RingStep)
  | takeReader
  | dropReader

inductive SharedAnswer where
  | told (answer : RingAnswer)
  /-- Nobody holds the reader, so nothing can be asked of it. -/
  | unread
  /-- Whether the reader was handed out. -/
  | reader (given : Bool)
  | dropped
deriving DecidableEq

/-- A ring with its user, and whether somebody holds the reader. -/
structure SharedRing where
  client : RingClient
  reading : Bool := false

/-- A step, the answer to it, and how deep the ring is afterwards. -/
structure Moment where
  step : SharedStep
  answer : SharedAnswer
  depth : UInt64

namespace SharedRing

def step : SharedStep → SharedRing → SharedAnswer × SharedRing
  | .use action, shared =>
      if action.reads && !shared.reading then (.unread, shared)
      else
        (.told (shared.client.step action).1,
          { shared with client := (shared.client.step action).2 })
  | .takeReader, shared =>
      let (given, ring) := shared.client.ring.takeReader
      (.reader given, ⟨{ shared.client with ring }, shared.reading || given⟩)
  | .dropReader, shared => (.dropped, { shared with reading := false })

/-- Takes a step and notes what is seen of it. -/
def observe (action : SharedStep) (shared : SharedRing) : Moment × SharedRing :=
  (⟨action, (shared.step action).1, (shared.step action).2.client.ring.depth⟩,
    (shared.step action).2)

end SharedRing

namespace Moment

def told? (moment : Moment) : Option RingAnswer :=
  match moment.answer with
  | .told answer => some answer
  | _ => none

def commits (moment : Moment) : Bool :=
  match moment.step, moment.answer with
  | .use (.commit _), .told .closed => true
  | _, _ => false

def refuses (moment : Moment) : Bool := moment.told? = some .refused

def records (moment : Moment) : List Record := (moment.told?.map RingAnswer.records).getD []

/-- How deep the ring was after a request was granted. -/
def grantDepth? (moment : Moment) : Option Nat :=
  match moment.answer with
  | .told (.granted _) => some moment.depth.toNat
  | _ => none

/-- Whether the reader was handed out when somebody asked for it. -/
def given? (moment : Moment) : Option Bool :=
  match moment.answer with
  | .reader given => some given
  | _ => none

end Moment

namespace SharedRing

/-- What a step does. -/
inductive Observed (shared : SharedRing) : Moment × SharedRing → Prop
  | used (action : RingStep) (hreader : action.reads = true → shared.reading = true) :
      Observed shared
        (⟨.use action, .told (shared.client.step action).1,
            (shared.client.step action).2.ring.depth⟩,
          { shared with client := (shared.client.step action).2 })
  | unread (action : RingStep) (hreads : action.reads = true) (hnone : shared.reading = false) :
      Observed shared (⟨.use action, .unread, shared.client.ring.depth⟩, shared)
  | asked :
      Observed shared
        (⟨.takeReader, .reader (!shared.client.ring.readerTaken), shared.client.ring.depth⟩,
          ⟨{ shared.client with ring := shared.client.ring.takeReader.2 },
            shared.reading || !shared.client.ring.readerTaken⟩)
  | dropped :
      Observed shared
        (⟨.dropReader, .dropped, shared.client.ring.depth⟩, { shared with reading := false })

theorem observed (action : SharedStep) (shared : SharedRing) :
    shared.Observed (shared.observe action) := by
  cases action with
  | use action =>
      by_cases hunread : (action.reads && !shared.reading) = true
      · obtain ⟨hreads, hnone⟩ := Bool.and_eq_true_iff.1 hunread
        have hstep : shared.step (.use action) = (.unread, shared) := if_pos hunread
        rw [observe, hstep]
        exact .unread action hreads (by simpa using hnone)
      · have hstep : shared.step (.use action) = (.told (shared.client.step action).1,
            { shared with client := (shared.client.step action).2 }) := if_neg hunread
        rw [observe, hstep]
        exact .used action fun hreads => by simpa [hreads] using hunread
  | takeReader => exact .asked
  | dropReader => exact .dropped

end SharedRing

/-! ## The reader is handed out once -/

namespace Ring

theorem readerTaken_reserve (ring : Ring) : ring.reserve.2.readerTaken = ring.readerTaken := by
  simp only [reserve]
  split
  · rfl
  · split <;> rfl

theorem readerTaken_popWithin (ring : Ring) (steps : Nat) :
    (ring.popWithin steps).2.readerTaken = ring.readerTaken := by
  induction steps generalizing ring with
  | zero => rfl
  | succ steps ih =>
      unfold popWithin
      split
      · dsimp only
        split
        · exact ih ring.release
        · rfl
      · rfl

theorem readerTaken_popBatch (ring : Ring) (limit : Nat) :
    (ring.popBatch limit).2.readerTaken = ring.readerTaken := by
  induction limit generalizing ring with
  | zero => rfl
  | succ limit ih =>
      have hfirst : ring.pop.2.readerTaken = ring.readerTaken := ring.readerTaken_popWithin _
      rw [popBatch]
      rcases hpop : ring.pop with ⟨answer, next⟩
      rw [hpop] at hfirst
      cases answer with
      | none => exact hfirst
      | some record => exact (ih next).trans hfirst

end Ring

/-- No use of a ring brings its reader back. -/
theorem RingClient.readerTaken_step (client : RingClient) (action : RingStep) :
    (client.step action).2.ring.readerTaken = client.ring.readerTaken := by
  have hclose : ∀ id publish,
      (∀ slot, (publish client.ring slot).readerTaken = client.ring.readerTaken) →
      (client.close id publish).2.ring.readerTaken = client.ring.readerTaken := by
    intro id publish hpublish
    unfold close
    split
    · exact hpublish _
    · rfl
  cases action with
  | reserve =>
      have hreserve := client.ring.readerTaken_reserve
      rw [step]
      rcases hring : client.ring.reserve with ⟨answer, ring⟩
      rw [hring] at hreserve
      cases answer <;> exact hreserve
  | fill id change =>
      rw [step]
      unfold fill
      split <;> rfl
  | commit id => exact hclose id _ fun _ => rfl
  | discard id => exact hclose id _ fun _ => rfl
  | drop id => exact hclose id _ fun _ => rfl
  | pop => exact client.ring.readerTaken_popWithin (client.ring.capacity + 1)
  | popBatch limit => exact client.ring.readerTaken_popBatch limit

namespace SharedRing

/-- Of those who ask for the reader the first gets it, unless it was handed out before. -/
theorem given_runAll (actions : List SharedStep) (shared : SharedRing) {first : Bool}
    {later : List Bool}
    (h : (runAll observe actions shared).1.filterMap Moment.given? = first :: later) :
    first = !shared.client.ring.readerTaken ∧ true ∉ later := by
  induction actions generalizing shared first later with
  | nil => cases h
  | cons action rest ih =>
      rw [runAll_cons] at h
      have hobserved := shared.observed action
      generalize shared.observe action = result at hobserved h
      cases hobserved with
      | used action =>
          have hrest := ih _ h
          rwa [RingClient.readerTaken_step] at hrest
      | unread action => exact ih _ h
      | dropped => exact ih { shared with reading := false } h
      | asked =>
          obtain ⟨rfl, hlater⟩ := List.cons.inj h
          refine ⟨rfl, ?_⟩
          -- from here on the ring counts the reader as taken, so nobody gets it
          cases later with
          | nil => exact List.not_mem_nil
          | cons second later =>
              obtain ⟨hsecond, hnone⟩ := ih _ hlater
              rw [List.mem_cons, not_or]
              exact ⟨fun htrue => Bool.noConfusion (htrue.trans hsecond), hnone⟩

end SharedRing

end DentryWatch
