import DentryWatch.Proofs.Ring.Readers
import Mathlib.Data.List.Induction

/-!
# The log of a ring and its queue

Every step adds to the log of a run what it adds to the queue of reservations:
commits, deliveries, refusals, and how deep the queue was when it granted a
request. So the queue that a ring stands for counts what was logged.
-/

namespace DentryWatch

/-- The largest of some depths. -/
def deepestOf (depths : List Nat) : Nat := depths.foldl max 0

theorem deepestOf_concat (depths : List Nat) (depth : Nat) :
    deepestOf (depths ++ [depth]) = max (deepestOf depths) depth := by
  rw [deepestOf, List.foldl_append]
  rfl

theorem deepestOf_le_append (depths more : List Nat) :
    deepestOf depths ≤ deepestOf (depths ++ more) := by
  induction more using List.reverseRecOn with
  | nil => exact Nat.le_of_eq (congrArg deepestOf (List.append_nil depths).symm)
  | append_singleton more depth ih =>
      rw [← List.append_assoc, deepestOf_concat]
      exact Nat.le_trans ih (Nat.le_max_left ..)

namespace ReservationQueue

/-! ## Steps -/

/-- What a step does. -/
inductive Stepped (queue : ReservationQueue) : RingStep → RingAnswer × ReservationQueue → Prop
  | granted (hroom : queue.waiting.length < queue.capacity) :
      Stepped queue .reserve
        (.granted queue.entries.length,
          { queue with
            entries := queue.entries ++ [{ record := queue.leftover queue.entries.length }]
            deepest := max queue.deepest (queue.waiting.length + 1) })
  | refused : Stepped queue .reserve (.refused, { queue with refused := queue.refused + 1 })
  | filled {id : Nat} {record : Record} (hheld : queue.entries[id]? = some ⟨.held, record⟩)
      (change : Record → Record) :
      Stepped queue (.fill id change) (.filled (change record), queue.fill id change)
  | committed {id : Nat} {record : Record} (hheld : queue.entries[id]? = some ⟨.held, record⟩) :
      Stepped queue (.commit id) (.closed, queue.close id .committed)
  | discarded {id : Nat} {record : Record} (hheld : queue.entries[id]? = some ⟨.held, record⟩)
      {action : RingStep} (haction : action = .discard id ∨ action = .drop id) :
      Stepped queue action (.closed, queue.close id .discarded)
  | idle {action : RingStep} {id : Nat} (htarget : action.target = some id)
      (hclosed : ∀ entry, queue.entries[id]? = some entry → entry.fate ≠ .held) :
      Stepped queue action (.notHeld, queue)
  | delivered {action : RingStep} (hreads : action.reads = true) (records : List Record)
      (taken : Nat) : Stepped queue action (.delivered records, { queue with taken })

theorem stepped (queue : ReservationQueue) (action : RingStep) :
    queue.Stepped action (queue.step action) := by
  have hidle : ∀ id change reply, action.target = some id →
      (∀ entry, queue.entries[id]? = some entry → entry.fate ≠ .held) →
      queue.Stepped action (queue.answer id reply, queue.update id change) := by
    intro id change reply htarget hclosed
    rw [answer_of_closed hclosed, update_of_closed hclosed]
    exact .idle htarget hclosed
  cases action with
  | reserve =>
      rw [step, reserve]
      split
      · next hroom => exact .granted hroom
      · exact .refused
  | fill id change =>
      rcases queue.held_or_closed id with ⟨record, hheld⟩ | hclosed
      · rw [step, answer_of_held hheld]
        exact .filled hheld change
      · exact hidle id _ _ rfl hclosed
  | commit id =>
      rcases queue.held_or_closed id with ⟨record, hheld⟩ | hclosed
      · rw [step, answer_of_held hheld]
        exact .committed hheld
      · exact hidle id _ _ rfl hclosed
  | discard id =>
      rcases queue.held_or_closed id with ⟨record, hheld⟩ | hclosed
      · rw [step, answer_of_held hheld]
        exact .discarded hheld (.inl rfl)
      · exact hidle id _ _ rfl hclosed
  | drop id =>
      rcases queue.held_or_closed id with ⟨record, hheld⟩ | hclosed
      · rw [step, answer_of_held hheld]
        exact .discarded hheld (.inr rfl)
      · exact hidle id _ _ rfl hclosed
  | pop =>
      obtain ⟨taken, hpop⟩ := queue.exists_pop_eq
      have hstep : queue.step .pop = (.delivered queue.pop.1.toList, { queue with taken }) :=
        congrArg _ hpop
      rw [hstep]
      exact .delivered rfl _ taken
  | popBatch limit =>
      obtain ⟨taken, hpop⟩ := queue.exists_popBatch_eq limit
      have hstep : queue.step (.popBatch limit) =
          (.delivered (queue.popBatch limit).1, { queue with taken }) := congrArg _ hpop
      rw [hstep]
      exact .delivered rfl _ taken

/-! ## The log and the queue -/

/-- The log tells what the queue counts. -/
structure Tallied (queue : ReservationQueue) (log : List Moment) : Prop where
  commits : (committed queue.entries).length = log.countP Moment.commits
  output : queue.output = log.flatMap Moment.records
  refused : queue.refused = log.countP Moment.refuses
  deepest : queue.deepest = deepestOf (log.filterMap Moment.grantDepth?)

variable {queue next : ReservationQueue} {log : List Moment} {moment : Moment}

theorem Tallied.concat (h : queue.Tallied log)
    (hcommits : (committed next.entries).length =
      (committed queue.entries).length + if moment.commits then 1 else 0)
    (houtput : next.output = queue.output ++ moment.records)
    (hrefused : next.refused = queue.refused + if moment.refuses then 1 else 0)
    (hdeepest : next.deepest = moment.grantDepth?.elim queue.deepest (max queue.deepest)) :
    next.Tallied (log ++ [moment]) := by
  refine ⟨?_, ?_, ?_, ?_⟩
  · rw [hcommits, h.commits, List.countP_append, List.countP_singleton]
  · rw [houtput, h.output, List.flatMap_append, List.flatMap_singleton]
  · rw [hrefused, h.refused, List.countP_append, List.countP_singleton]
  · rw [hdeepest, h.deepest, List.filterMap_append]
    cases hdepth : moment.grantDepth? with
    | none => simp [hdepth]
    | some depth => simp [hdepth, deepestOf_concat]

/-- A moment in which the ring took no step adds nothing. -/
theorem Tallied.idle (h : queue.Tallied log) (htold : moment.told? = none) :
    queue.Tallied (log ++ [moment]) := by
  obtain ⟨step, answer, depth⟩ := moment
  have hquiet : (Moment.mk step answer depth).commits = false := by
    cases answer with
    | told answer => cases htold
    | unread | reader | dropped =>
        cases step with
        | use action => cases action <;> rfl
        | takeReader | dropReader => rfl
  refine h.concat ?_ ?_ ?_ ?_
  · rw [hquiet]
    rfl
  · rw [Moment.records, htold]
    exact (List.append_nil _).symm
  · rw [Moment.refuses, htold]
    rfl
  · cases answer with
    | told answer => cases htold
    | unread | reader | dropped => rfl

end ReservationQueue

namespace RingClient.Matches

open ReservationQueue

variable {client : RingClient} {queue : ReservationQueue} {log : List Moment}

/-- A step of the ring adds to the log what it adds to the queue. -/
theorem tallied (h : client.Matches queue) (hlog : queue.Tallied log) (action : RingStep) :
    (queue.step action).2.Tallied (log ++ [⟨.use action, .told (client.step action).1,
      (client.step action).2.ring.depth⟩]) := by
  obtain ⟨hanswer, hnext⟩ := h.step action
  have houtput := h.output_step action
  have hdepth := hnext.ring.toNat_depth
  rw [hanswer]
  have hstep := queue.stepped action
  generalize queue.step action = result at hstep houtput hdepth
  cases hstep with
  | granted hroom =>
      have hlength : ∀ entry, ((queue.entries ++ [entry]).drop queue.taken).length =
          queue.waiting.length + 1 := by
        intro entry
        rw [List.drop_append_of_le_length h.ring.taken_le, List.length_append]
        rfl
      refine hlog.concat ?_ houtput rfl ?_
      · rw [committed_append, List.length_append]
        rfl
      · exact congrArg (max queue.deepest) (hdepth.trans (hlength _)).symm
  | refused => exact hlog.concat rfl houtput rfl rfl
  | filled hheld change =>
      exact hlog.concat (length_committed_update hheld rfl _) houtput rfl rfl
  | committed hheld => exact hlog.concat (length_committed_update hheld rfl _) houtput rfl rfl
  | discarded hheld haction =>
      refine hlog.concat ?_ houtput rfl rfl
      obtain rfl | rfl := haction
      · exact length_committed_update hheld rfl _
      · exact length_committed_update hheld rfl _
  | idle => exact hlog.concat (by cases action <;> rfl) houtput rfl rfl
  | delivered hreads records taken =>
      refine hlog.concat ?_ houtput rfl rfl
      cases action <;> rfl

end RingClient.Matches

/-! ## Runs -/

namespace SharedRing

variable {shared : SharedRing} {queue : ReservationQueue} {log : List Moment}

theorem Observed.tallied {result : Moment × SharedRing} (hobserved : shared.Observed result)
    (h : shared.client.Matches queue) (hlog : queue.Tallied log) :
    ∃ next, result.2.client.Matches next ∧ next.Tallied (log ++ [result.1]) := by
  cases hobserved with
  | used action => exact ⟨_, (h.step action).2, h.tallied hlog action⟩
  | unread action => exact ⟨queue, h, hlog.idle rfl⟩
  | asked => exact ⟨queue, ⟨h.ring.takeReader, h.held⟩, hlog.idle rfl⟩
  | dropped => exact ⟨queue, h, hlog.idle rfl⟩

/-- After any run the ring stands for a queue that counts what was logged. -/
theorem runAll_tallied (steps : List SharedStep) (h : shared.client.Matches queue)
    (hlog : queue.Tallied log) :
    ∃ last, (runAll observe steps shared).2.client.Matches last ∧
      last.Tallied (log ++ (runAll observe steps shared).1) := by
  induction steps generalizing shared queue log with
  | nil => exact ⟨queue, h, (List.append_nil log).symm ▸ hlog⟩
  | cons action rest ih =>
      obtain ⟨next, hnext, hmoment⟩ := (shared.observed action).tallied h hlog
      obtain ⟨last, hlast, hall⟩ := ih hnext hmoment
      rw [List.append_assoc] at hall
      exact ⟨last, hlast, hall⟩

end SharedRing

end DentryWatch
