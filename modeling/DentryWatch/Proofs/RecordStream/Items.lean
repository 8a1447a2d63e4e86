import DentryWatch.Proofs.Record.Wire
import DentryWatch.Proofs.RecordStream.Delivery

/-!
# The items of a stream

However the reads of a stream are cut, its reader answers with the items of the
whole blocks that were delivered, then with what ends the stream, and with
nothing from then on.
-/

namespace DentryWatch

abbrev StreamItem := Except ExportFailure Record

def blocks (bytes : Bytes) : List Bytes :=
  (List.range (bytes.length / recordSize)).map fun i =>
    (bytes.drop (i * recordSize)).take recordSize

def blockItem (block : Bytes) : StreamItem := (Record.decode block).mapError .record

/-- What comes behind the whole blocks: the failure, or else the bytes of a partial block. -/
def lastItems (bytes : Bytes) : Option IoFailure → List StreamItem
  | some cause => [.error (.io cause)]
  | none =>
      if bytes.length % recordSize = 0 then []
      else [.error (.record (.truncated (bytes.length % recordSize)))]

def streamItems (bytes : Bytes) (ending : Option IoFailure) : List StreamItem :=
  (blocks bytes).map blockItem ++ lastItems bytes ending

theorem blocks_of_short {bytes : Bytes} (h : bytes.length < recordSize) : blocks bytes = [] := by
  unfold blocks
  rw [Nat.div_eq_of_lt h]
  rfl

theorem blocks_of_long {bytes : Bytes} (h : recordSize ≤ bytes.length) :
    blocks bytes = bytes.take recordSize :: blocks (bytes.drop recordSize) := by
  unfold blocks
  have hcount : bytes.length / recordSize = (bytes.length - recordSize) / recordSize + 1 :=
    Nat.div_eq_sub_div (by decide) h
  rw [hcount, List.range_succ_eq_map, List.map_cons, List.map_map, List.length_drop, Nat.zero_mul,
    List.drop_zero]
  apply congrArg (List.cons _)
  apply List.map_congr_left
  intro i _
  simp only [Function.comp_apply, List.drop_drop, Nat.succ_mul, Nat.add_comm]

theorem streamItems_of_short {bytes : Bytes} (h : bytes.length < recordSize)
    (ending : Option IoFailure) : streamItems bytes ending = lastItems bytes ending := by
  unfold streamItems
  rw [blocks_of_short h]
  rfl

theorem streamItems_of_long {bytes : Bytes} (h : recordSize ≤ bytes.length)
    (ending : Option IoFailure) :
    streamItems bytes ending =
      blockItem (bytes.take recordSize) :: streamItems (bytes.drop recordSize) ending := by
  have hlast : lastItems bytes ending = lastItems (bytes.drop recordSize) ending := by
    unfold lastItems
    rw [List.length_drop, ← Nat.mod_eq_sub_mod h]
  unfold streamItems
  rw [blocks_of_long h, List.map_cons, hlast]
  rfl

theorem streamItems_length_le (bytes : Bytes) (ending : Option IoFailure) :
    (streamItems bytes ending).length ≤ bytes.length / recordSize + 1 := by
  have hlast : (lastItems bytes ending).length ≤ 1 := by
    unfold lastItems
    split
    · simp
    · split <;> simp
  simp only [streamItems, blocks, List.length_append, List.length_map, List.length_range]
  omega

namespace RecordReader

/-- The answers of so many calls, one after another. -/
def answers : Nat → RecordReader → List (Option StreamItem)
  | 0, _ => []
  | calls + 1, reader => reader.next.1 :: answers calls reader.next.2

/-- A reader answers with these items, all at once or one by one, and then with nothing for ever. -/
def Yields (reader : RecordReader) (items : List StreamItem) : Prop :=
  reader.items = items ∧
    ∀ calls, reader.answers calls = (List.range calls).map fun call => items[call]?

theorem answers_of_finished (source : ByteSource) (calls : Nat) :
    answers calls ⟨source, true⟩ = (List.range calls).map fun _ => none := by
  induction calls with
  | zero => rfl
  | succ calls ih =>
      rw [answers, List.range_succ_eq_map, List.map_cons, List.map_map]
      exact congrArg _ ih

/-- What the next call of a reader does, between two blocks. -/
inductive Answers (data : Bytes) (sofar : Nat) (script : List ReadEvent) :
    Option StreamItem × RecordReader → Prop
  | block {more : List ReadEvent} (hfits : sofar + recordSize ≤ data.length)
      (hmore : ByteSource.delivery data.length (sofar + recordSize) more =
        ByteSource.delivery data.length sofar script) :
      Answers data sofar script (some (blockItem ((data.drop sofar).take recordSize)),
        ⟨⟨data.drop (sofar + recordSize), more⟩, false⟩)
  | last {last : Nat} {ending : Option IoFailure} {source : ByteSource}
      (hshort : last < sofar + recordSize)
      (hend : ByteSource.delivery data.length sofar script = (last, ending)) :
      Answers data sofar script
        ((lastItems ((data.take last).drop sofar) ending).head?, ⟨source, true⟩)

theorem next_of_collected {data bytes : Bytes} {script : List ReadEvent} {source : ByteSource}
    (h : ByteSource.collect recordSize data script = (.ok bytes, source)) :
    next ⟨⟨data, script⟩, false⟩ =
      if bytes.isEmpty then (none, ⟨source, true⟩)
      else (some (blockItem bytes), ⟨source, bytes.length < recordSize⟩) := by
  unfold next blockItem
  simp only [h, Bool.false_eq_true, if_false]
  cases Record.decode bytes <;> rfl

theorem next_answers (data : Bytes) (script : List ReadEvent) {sofar : Nat}
    (hsofar : sofar ≤ data.length) (haligned : sofar % recordSize = 0) :
    Answers data sofar script (next ⟨⟨data.drop sofar, script⟩, false⟩) := by
  have hneed : sofar % recordSize + recordSize = recordSize := by omega
  have hcollected := ByteSource.collected data script hsofar hneed
  generalize hcollect : ByteSource.collect recordSize (data.drop sofar) script = result
    at hcollected
  cases hcollected with
  | @whole more hfits hmore =>
      have hlength : ((data.drop sofar).take recordSize).length = recordSize := by
        rw [List.length_take, List.length_drop]
        omega
      have hsome : ¬ ((data.drop sofar).take recordSize).isEmpty = true := by
        rw [List.isEmpty_iff, ← List.length_eq_zero_iff, hlength]
        decide
      rw [next_of_collected hcollect, if_neg hsome, hlength]
      simp only [Nat.lt_irrefl, decide_false]
      exact .block hfits hmore
  | @short last source hshort hend =>
      have hbounds := ByteSource.delivery_bounds script hsofar
      rw [hend] at hbounds
      dsimp only at hbounds
      have hlength : ((data.drop sofar).take (last - sofar)).length = last - sofar := by
        rw [List.length_take, List.length_drop]
        omega
      have hlt : last - sofar < recordSize := by omega
      have hlast : ((data.take last).drop sofar) = (data.drop sofar).take (last - sofar) :=
        List.drop_take
      have hanswer : Answers data sofar script
          ((lastItems ((data.take last).drop sofar) none).head?, ⟨source, true⟩) :=
        .last hshort hend
      rw [hlast, lastItems, hlength, Nat.mod_eq_of_lt hlt] at hanswer
      rw [next_of_collected hcollect]
      by_cases hzero : last - sofar = 0
      · rw [if_pos hzero] at hanswer
        rw [hzero, if_pos (by simp)]
        exact hanswer
      · rw [if_neg hzero] at hanswer
        have hsome : ¬ ((data.drop sofar).take (last - sofar)).isEmpty = true := by
          rw [List.isEmpty_iff, ← List.length_eq_zero_iff, hlength]
          exact hzero
        have hitem : blockItem ((data.drop sofar).take (last - sofar)) =
            .error (.record (.truncated (last - sofar))) := by
          unfold blockItem Record.decode
          rw [hlength, if_pos hlt]
          rfl
        rw [if_neg hsome, hlength, hitem]
        simpa only [hlt, decide_true, List.head?_cons] using hanswer
  | @failed last cause source hshort hend =>
      have hnext : next ⟨⟨data.drop sofar, script⟩, false⟩ =
          (some (.error (.io cause)), ⟨source, true⟩) := by
        unfold next
        simp only [hcollect, Bool.false_eq_true, if_false]
      rw [hnext]
      exact .last hshort hend

/-- Call by call, a reader gives the items of what is delivered from its position on. -/
theorem answers_eq (data : Bytes) (script : List ReadEvent) {sofar last : Nat}
    {ending : Option IoFailure} (hsofar : sofar ≤ data.length)
    (haligned : sofar % recordSize = 0)
    (hend : ByteSource.delivery data.length sofar script = (last, ending)) (calls : Nat) :
    answers calls ⟨⟨data.drop sofar, script⟩, false⟩ =
      (List.range calls).map fun call =>
        (streamItems ((data.take last).drop sofar) ending)[call]? := by
  induction calls generalizing sofar script with
  | zero => rfl
  | succ calls ih =>
      have hbounds := ByteSource.delivery_bounds script hsofar
      rw [hend] at hbounds
      dsimp only at hbounds
      have hnext := next_answers data script hsofar haligned
      rw [answers, List.range_succ_eq_map, List.map_cons, List.map_map]
      generalize next ⟨⟨data.drop sofar, script⟩, false⟩ = result at hnext
      cases hnext with
      | @block more hfits hmore =>
          have hlow := (ByteSource.delivery_bounds more hfits).1
          rw [hmore, hend] at hlow
          dsimp only at hlow
          have haligned' : (sofar + recordSize) % recordSize = 0 := by
            rw [Nat.add_mod_right, haligned]
          have hrest := ih more hfits haligned' (hmore.trans hend)
          have hlong : recordSize ≤ ((data.take last).drop sofar).length := by
            rw [List.length_drop, List.length_take]
            omega
          have hfirst : ((data.take last).drop sofar).take recordSize =
              (data.drop sofar).take recordSize := by
            rw [List.drop_take, List.take_take, Nat.min_eq_left (by omega)]
          rw [streamItems_of_long hlong, List.drop_drop, hfirst]
          exact congrArg _ hrest
      | @last last' ending' source hshort hend' =>
          obtain ⟨rfl, rfl⟩ := Prod.mk.inj (hend'.symm.trans hend)
          have hlength : ((data.take last').drop sofar).length < recordSize := by
            rw [List.length_drop, List.length_take]
            omega
          have hfew := streamItems_length_le ((data.take last').drop sofar) ending'
          rw [Nat.div_eq_of_lt hlength] at hfew
          rw [answers_of_finished, ← streamItems_of_short hlength, List.head?_eq_getElem?]
          refine congrArg _ (List.map_congr_left fun call _ => ?_)
          rw [Function.comp_apply, List.getElem?_eq_none (by omega)]

/-- Reading to the end gives what the single calls give. -/
theorem itemsWithin_of_answers {steps : Nat} {reader : RecordReader} {items : List StreamItem}
    (h : ∀ calls, reader.answers calls = (List.range calls).map fun call => items[call]?)
    (hsteps : items.length < steps) : itemsWithin steps reader = items := by
  induction steps generalizing reader items with
  | zero => omega
  | succ steps ih =>
      have hfirst := h 1
      have hrest : ∀ calls, answers calls reader.next.2 =
          (List.range calls).map fun call => items[call + 1]? := by
        intro calls
        have hmore := h (calls + 1)
        rw [answers, List.range_succ_eq_map, List.map_cons, List.map_map] at hmore
        exact (List.cons.inj hmore).2
      have hitem : reader.next.1 = items[0]? := (List.cons.inj hfirst).1
      generalize hnext : reader.next = result at hitem hrest
      obtain ⟨answer, later⟩ := result
      dsimp only at hitem hrest
      rw [itemsWithin, hnext]
      cases items with
      | nil =>
          rw [hitem]
          rfl
      | cons item items =>
          rw [hitem]
          have hlater := ih hrest (by simpa using hsteps)
          exact congrArg (item :: ·) hlater

/-- A reader yields the items of what its schedule delivers. -/
theorem yields_streamItems (data : Bytes) (script : List ReadEvent) {last : Nat}
    {ending : Option IoFailure}
    (hend : ByteSource.delivery data.length 0 script = (last, ending)) :
    Yields ⟨⟨data, script⟩, false⟩ (streamItems (data.take last) ending) := by
  have hanswers := answers_eq data script (Nat.zero_le _) (Nat.zero_mod _) hend
  have hbound := streamItems_length_le (data.take last) ending
  have hfewer : (data.take last).length / recordSize ≤ data.length / recordSize :=
    Nat.div_le_div_right (List.length_take_le' _ _)
  have hsteps : (streamItems (data.take last) ending).length < data.length / recordSize + 2 := by
    omega
  exact ⟨itemsWithin_of_answers hanswers hsteps, hanswers⟩

end RecordReader

end DentryWatch
