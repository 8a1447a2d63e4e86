import DentryWatch.Ring

/-!
# A bounded queue of reservations

What the trace ring stands for, without cells, turns and words: the list of all
reservations ever granted, of which a prefix is consumed. At most `capacity` of
them are in use at once. A reservation begins with what the one a capacity
before it left behind.
-/

namespace DentryWatch

/-- What became of a reservation. -/
inductive Fate where
  | held
  | committed
  | discarded
deriving DecidableEq, Repr

/-- A reservation and what is written in it. -/
structure Entry where
  fate : Fate := .held
  record : Record

/-- All reservations so far. -/
structure ReservationQueue where
  /-- How many reservations can be in use at once. -/
  capacity : Nat
  /-- Every reservation ever granted, in order. -/
  entries : List Entry := []
  /-- How many of them, from the first on, are consumed. -/
  taken : Nat := 0
  /-- How many requests were refused. -/
  refused : Nat := 0
  /-- The largest number in use right after a request was granted. -/
  deepest : Nat := 0

namespace ReservationQueue

/-- The reservations in use, the oldest first. -/
def waiting (queue : ReservationQueue) : List Entry := queue.entries.drop queue.taken

def leftover (queue : ReservationQueue) (position : Nat) : Record :=
  if position < queue.capacity then .zero
  else ((queue.entries[position - queue.capacity]?).map Entry.record).getD .zero

/-- Grants one more reservation, unless the capacity is in use. -/
def reserve (queue : ReservationQueue) : Bool × ReservationQueue :=
  if queue.waiting.length < queue.capacity then
    (true,
      { queue with
        entries := queue.entries ++ [{ record := queue.leftover queue.entries.length }]
        deepest := max queue.deepest (queue.waiting.length + 1) })
  else (false, { queue with refused := queue.refused + 1 })

/-- Changes a reservation as long as it is held. -/
def update (queue : ReservationQueue) (id : Nat) (change : Entry → Entry) : ReservationQueue :=
  { queue with
    entries := queue.entries.modify id fun entry =>
      if entry.fate = .held then change entry else entry }

def fill (queue : ReservationQueue) (id : Nat) (change : Record → Record) : ReservationQueue :=
  queue.update id fun entry => { entry with record := change entry.record }

def close (queue : ReservationQueue) (id : Nat) (fate : Fate) : ReservationQueue :=
  queue.update id ({ · with fate })

/-- Passes over the oldest discarded reservations. -/
def skip (queue : ReservationQueue) : ReservationQueue :=
  { queue with
    taken := queue.taken + (queue.waiting.takeWhile (·.fate = .discarded)).length }

/-- Delivers the oldest reservation that is not discarded, if it is committed. -/
def pop (queue : ReservationQueue) : Option Record × ReservationQueue :=
  let queue := queue.skip
  match queue.waiting.head? with
  | some ⟨.committed, record⟩ => (some record, { queue with taken := queue.taken + 1 })
  | _ => (none, queue)

def popBatch : Nat → ReservationQueue → List Record × ReservationQueue
  | 0, queue => ([], queue)
  | limit + 1, queue =>
      match queue.pop with
      | (some record, queue) =>
          let (records, queue) := popBatch limit queue
          (record :: records, queue)
      | (none, queue) => ([], queue)

/-- The records of the committed ones among some reservations. -/
def committed (entries : List Entry) : List Record :=
  (entries.filter (·.fate = .committed)).map Entry.record

/-- The pressure counters, which are words. -/
def stats (queue : ReservationQueue) : RingStats where
  pushes := UInt64.ofNat (committed queue.entries).length
  pops := UInt64.ofNat (committed (queue.entries.take queue.taken)).length
  drops := UInt64.ofNat queue.refused
  maxDepth := UInt64.ofNat queue.deepest

@[simp] theorem length_waiting (queue : ReservationQueue) :
    queue.waiting.length = queue.entries.length - queue.taken := by
  simp [waiting]

/-- What a later reservation begins with does not hang on those granted since. -/
theorem leftover_append (queue : ReservationQueue) (more : List Entry) {position : Nat}
    (h : position < queue.entries.length + queue.capacity) :
    ({ queue with entries := queue.entries ++ more } : ReservationQueue).leftover position =
      queue.leftover position := by
  by_cases hfirst : position < queue.capacity
  · rw [leftover, leftover, if_pos hfirst, if_pos hfirst]
  · rw [leftover, leftover, if_neg hfirst, if_neg hfirst,
      List.getElem?_append_left (show position - queue.capacity < queue.entries.length by omega)]

theorem committed_append (before after : List Entry) :
    committed (before ++ after) = committed before ++ committed after := by
  simp [committed]

theorem skip_of_discarded {queue : ReservationQueue} {record : Record} {rest : List Entry}
    (h : queue.waiting = ⟨.discarded, record⟩ :: rest) :
    queue.skip = ({ queue with taken := queue.taken + 1 } : ReservationQueue).skip := by
  have hrest : ({ queue with taken := queue.taken + 1 } : ReservationQueue).waiting = rest := by
    have := congrArg List.tail h
    simpa [waiting, List.tail_drop] using this
  have hcount : queue.taken + (rest.takeWhile (·.fate = .discarded)).length.succ =
      queue.taken + 1 + (rest.takeWhile (·.fate = .discarded)).length := by omega
  rw [skip, skip, hrest, h]
  simp [hcount]

theorem skip_of_kept {queue : ReservationQueue}
    (h : ∀ entry, queue.waiting.head? = some entry → entry.fate ≠ .discarded) :
    queue.skip = queue := by
  have hnone : queue.waiting.takeWhile (·.fate = .discarded) = [] := by
    cases hwaiting : queue.waiting with
    | nil => rfl
    | cons entry rest =>
        have hne := h entry (by rw [hwaiting, List.head?_cons])
        simp [hne]
  rw [skip, hnone]
  rfl

/-- Either nothing can be read, or the oldest reservation is closed. -/
theorem open_or_closed (queue : ReservationQueue) :
    (∀ entry, queue.waiting.head? = some entry → entry.fate = .held) ∨
      ∃ entry rest, queue.waiting = entry :: rest ∧ entry.fate ≠ .held := by
  cases hwaiting : queue.waiting with
  | nil => exact .inl fun entry hentry => by cases hentry
  | cons entry rest =>
      by_cases hheld : entry.fate = .held
      · refine .inl fun other hother => ?_
        rw [List.head?_cons, Option.some.injEq] at hother
        exact hother ▸ hheld
      · exact .inr ⟨entry, rest, rfl, hheld⟩

theorem pop_of_discarded {queue : ReservationQueue} {record : Record} {rest : List Entry}
    (h : queue.waiting = ⟨.discarded, record⟩ :: rest) :
    queue.pop = ({ queue with taken := queue.taken + 1 } : ReservationQueue).pop := by
  rw [pop, pop, skip_of_discarded h]

theorem pop_of_committed {queue : ReservationQueue} {record : Record} {rest : List Entry}
    (h : queue.waiting = ⟨.committed, record⟩ :: rest) :
    queue.pop = (some record, { queue with taken := queue.taken + 1 }) := by
  have hkept : queue.skip = queue := skip_of_kept fun entry hentry => by
    rw [h, List.head?_cons, Option.some.injEq] at hentry
    subst hentry
    simp
  rw [pop, hkept, h]
  rfl

theorem pop_of_open {queue : ReservationQueue}
    (h : ∀ entry, queue.waiting.head? = some entry → entry.fate = .held) :
    queue.pop = (none, queue) := by
  have hkept : queue.skip = queue := skip_of_kept fun entry hentry => by
    rw [h entry hentry]
    simp
  rw [pop, hkept]
  cases hhead : queue.waiting.head? with
  | none => rfl
  | some entry =>
      obtain ⟨fate, record⟩ := entry
      obtain rfl : fate = .held := h _ hhead
      rfl

theorem getElem?_update (queue : ReservationQueue) (id : Nat) (change : Entry → Entry)
    (position : Nat) :
    (queue.update id change).entries[position]? =
      (queue.entries[position]?).map fun entry =>
        if id = position ∧ entry.fate = .held then change entry else entry := by
  rw [update, List.getElem?_modify]
  by_cases h : id = position <;> simp [h]

@[simp] theorem length_entries_update (queue : ReservationQueue) (id : Nat)
    (change : Entry → Entry) :
    (queue.update id change).entries.length = queue.entries.length := by
  simp [update]

/-- A reservation that is not held is left as it is. -/
theorem update_of_closed {queue : ReservationQueue} {id : Nat}
    (h : ∀ entry, queue.entries[id]? = some entry → entry.fate ≠ .held)
    (change : Entry → Entry) : queue.update id change = queue := by
  have hentries : (queue.update id change).entries = queue.entries := by
    refine List.ext_getElem? fun position => ?_
    rw [getElem?_update]
    by_cases hid : id = position
    · subst hid
      cases hentry : queue.entries[id]? with
      | none => rfl
      | some entry => simp [h entry hentry]
    · simp [hid]
  exact congrArg (fun entries => ({ queue with entries } : ReservationQueue)) hentries

theorem update_of_held {queue : ReservationQueue} {before after : List Entry} {entry : Entry}
    (h : queue.entries = before ++ entry :: after) (hheld : entry.fate = .held)
    (change : Entry → Entry) :
    queue.update before.length change =
      { queue with entries := before ++ change entry :: after } := by
  have hlt : before.length < (before ++ entry :: after).length := by simp
  rw [update, h, List.modify_eq_take_cons_drop hlt]
  simp [hheld]

theorem leftover_update {queue : ReservationQueue} {position : Nat}
    (h : queue.capacity ≤ position →
      ∀ entry, queue.entries[position - queue.capacity]? = some entry → entry.fate ≠ .held)
    (id : Nat) (change : Entry → Entry) :
    (queue.update id change).leftover position = queue.leftover position := by
  by_cases hfirst : position < queue.capacity
  · rw [leftover, leftover, if_pos hfirst]
    exact if_pos hfirst
  · rw [leftover, leftover, if_neg hfirst]
    refine (if_neg hfirst).trans ?_
    show (((queue.update id change).entries[position - queue.capacity]?).map _).getD _ = _
    rw [getElem?_update]
    cases hentry : queue.entries[position - queue.capacity]? with
    | none => rfl
    | some entry => simp [h (Nat.le_of_not_lt hfirst) entry hentry]

theorem take_update (queue : ReservationQueue) {id count : Nat} (h : count ≤ id)
    (change : Entry → Entry) :
    (queue.update id change).entries.take count = queue.entries.take count := by
  refine List.ext_getElem? fun position => ?_
  rw [List.getElem?_take, List.getElem?_take, getElem?_update]
  split
  · have hne : id ≠ position := by omega
    simp [hne]
  · rfl

theorem length_committed_update {queue : ReservationQueue} {id : Nat} {entry : Entry}
    (hentry : queue.entries[id]? = some entry) (hheld : entry.fate = .held)
    (change : Entry → Entry) :
    (committed (queue.update id change).entries).length =
      (committed queue.entries).length + if (change entry).fate = .committed then 1 else 0 := by
  obtain ⟨hlt, rfl⟩ := List.getElem?_eq_some_iff.1 hentry
  have hsplit : queue.entries =
      queue.entries.take id ++ queue.entries[id] :: queue.entries.drop (id + 1) := by
    rw [List.getElem_cons_drop, List.take_append_drop]
  have hlength : (queue.entries.take id).length = id := by
    rw [List.length_take, Nat.min_eq_left (Nat.le_of_lt hlt)]
  generalize queue.entries.take id = before at hsplit hlength
  generalize queue.entries.drop (id + 1) = after at hsplit
  generalize queue.entries[id] = entry at hsplit hheld
  subst hlength
  rw [update_of_held hsplit hheld]
  by_cases hfate : (change entry).fate = .committed
  · simp [committed, hsplit, hheld, hfate, Nat.add_assoc]
  · simp [committed, hsplit, hheld, hfate]

/-- Only a reservation that becomes a record is counted. -/
theorem stats_update {queue : ReservationQueue} {id : Nat} {entry : Entry}
    (hentry : queue.entries[id]? = some entry) (hheld : entry.fate = .held)
    (hid : queue.taken ≤ id) (change : Entry → Entry) :
    (queue.update id change).stats =
      { queue.stats with
        pushes := queue.stats.pushes + if (change entry).fate = .committed then 1 else 0 } := by
  have htaken : ((queue.update id change).entries.take (queue.update id change).taken) =
      queue.entries.take queue.taken := queue.take_update hid change
  simp only [stats, length_committed_update hentry hheld, htaken, UInt64.ofNat_add,
    RingStats.mk.injEq]
  by_cases hfate : (change entry).fate = .committed <;> simp [hfate, update]

theorem getElem?_taken {queue : ReservationQueue} {entry : Entry} {rest : List Entry}
    (h : queue.waiting = entry :: rest) : queue.entries[queue.taken]? = some entry := by
  rw [← List.head?_drop]
  exact congrArg List.head? h

/-- Only a record that is consumed is counted. -/
theorem stats_take {queue : ReservationQueue} {entry : Entry} {rest : List Entry}
    (h : queue.waiting = entry :: rest) :
    ({ queue with taken := queue.taken + 1 } : ReservationQueue).stats =
      { queue.stats with
        pops := queue.stats.pops + if entry.fate = .committed then 1 else 0 } := by
  simp only [stats, List.take_add_one, getElem?_taken h, Option.toList_some, committed_append,
    List.length_append, UInt64.ofNat_add, RingStats.mk.injEq, true_and, and_true]
  by_cases hfate : entry.fate = .committed <;> simp [committed, hfate]

end ReservationQueue

end DentryWatch
