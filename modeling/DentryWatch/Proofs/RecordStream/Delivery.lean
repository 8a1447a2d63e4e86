import DentryWatch.RecordStream.Reader

/-!
# What a schedule of reads delivers

A reader never asks for more than the block it is filling lacks. So how far a
schedule gets depends on the position in the stream only, and collecting a block
either completes it or meets the end of the delivery on the way.
-/

namespace DentryWatch.ByteSource

/-- How many bytes a read delivers: no more than the block lacks or than there are. -/
def readSize (total sofar limit : Nat) : Nat :=
  min limit (min (recordSize - sofar % recordSize) (total - sofar))

/--
How many of the bytes a schedule delivers, starting behind the first ones, and the
failure that ends the delivery; without one a read that delivers nothing ends it.
-/
def delivery (total : Nat) : Nat → List ReadEvent → Nat × Option IoFailure
  | _, [] => (total, none)
  | sofar, .interrupted :: script => delivery total sofar script
  | sofar, .fails cause :: _ => (sofar, some cause)
  | sofar, .upTo limit :: script =>
      if readSize total sofar limit = 0 then (sofar, none)
      else delivery total (sofar + readSize total sofar limit) script

/-- These reads each deliver something, and take the stream from one position to another. -/
inductive Delivers (total : Nat) : Nat → List ReadEvent → Nat → Prop
  | done (sofar : Nat) : Delivers total sofar [] sofar
  | interrupted {sofar last : Nat} {script : List ReadEvent}
      (h : Delivers total sofar script last) : Delivers total sofar (.interrupted :: script) last
  | read {sofar last limit : Nat} {script : List ReadEvent} (hlimit : 0 < limit)
      (hsofar : sofar < total)
      (h : Delivers total (sofar + readSize total sofar limit) script last) :
      Delivers total sofar (.upTo limit :: script) last

/-- A schedule without failures in which no read is cut to nothing. -/
def Steady (script : List ReadEvent) : Prop :=
  ∀ event ∈ script, event = .interrupted ∨ ∃ limit, 0 < limit ∧ event = .upTo limit

variable {total sofar last need : Nat} {script : List ReadEvent}

theorem readSize_eq (total limit : Nat) (h : sofar % recordSize + need = recordSize) :
    readSize total sofar limit = min limit (min need (total - sofar)) := by
  unfold readSize
  congr 2
  omega

theorem lacking_pos (sofar : Nat) : 0 < recordSize - sofar % recordSize := by
  have hlt : sofar % recordSize < recordSize := Nat.mod_lt _ (by decide)
  omega

theorem readSize_eq_zero_iff {limit : Nat} (hlimit : 0 < limit) :
    readSize total sofar limit = 0 ↔ total ≤ sofar := by
  have hpos := lacking_pos sofar
  unfold readSize
  omega

theorem readSize_le (total sofar limit : Nat) : readSize total sofar limit ≤ total - sofar := by
  unfold readSize
  omega

theorem delivery_bounds (script : List ReadEvent) (h : sofar ≤ total) :
    sofar ≤ (delivery total sofar script).1 ∧ (delivery total sofar script).1 ≤ total := by
  induction script generalizing sofar with
  | nil => exact ⟨h, Nat.le_refl _⟩
  | cons event script ih =>
      cases event with
      | interrupted => exact ih h
      | fails cause => exact ⟨Nat.le_refl _, h⟩
      | upTo limit =>
          unfold delivery
          split
          · exact ⟨Nat.le_refl _, h⟩
          · have hle := readSize_le total sofar limit
            have hnext : sofar + readSize total sofar limit ≤ total := by omega
            have hrest := ih hnext
            omega

theorem delivery_of_steady (h : Steady script) (hsofar : sofar ≤ total) :
    delivery total sofar script = (total, none) := by
  induction script generalizing sofar with
  | nil => rfl
  | cons event script ih =>
      have hrest : Steady script := fun event hmem => h event (List.mem_cons_of_mem _ hmem)
      rcases h event List.mem_cons_self with rfl | ⟨limit, hlimit, rfl⟩
      · exact ih hrest hsofar
      · unfold delivery
        have hle := readSize_le total sofar limit
        split
        · next hzero =>
            have hend := (readSize_eq_zero_iff hlimit).1 hzero
            rw [Nat.le_antisymm hsofar hend]
        · exact ih hrest (by omega)

theorem Delivers.delivery_append (h : Delivers total sofar script last)
    (rest : List ReadEvent) :
    delivery total sofar (script ++ rest) = delivery total last rest := by
  induction h with
  | done sofar => rfl
  | interrupted h ih => exact ih
  | @read sofar last limit script hlimit hsofar h ih =>
      have hsome : readSize total sofar limit ≠ 0 := by
        rw [ne_eq, readSize_eq_zero_iff hlimit]
        omega
      rw [List.cons_append, delivery, if_neg hsome, ih]

theorem Delivers.le_total (h : Delivers total sofar script last) (hsofar : sofar ≤ total) :
    last ≤ total := by
  induction h with
  | done sofar => exact hsofar
  | interrupted h ih => exact ih hsofar
  | @read sofar last limit script hlimit hlt h ih =>
      have hle := readSize_le total sofar limit
      exact ih (by omega)

/-! ## Collecting a block -/

theorem collect_zero (data : Bytes) (script : List ReadEvent) :
    collect 0 data script = (.ok [], ⟨data, script⟩) := by
  cases script with
  | nil => simp [collect]
  | cons event script => cases event <;> simp [collect]

/-- What collecting the rest of a block does. -/
inductive Collected (data : Bytes) (sofar need : Nat) (script : List ReadEvent) :
    Except IoFailure Bytes × ByteSource → Prop
  | whole {more : List ReadEvent} (hfits : sofar + need ≤ data.length)
      (hmore : delivery data.length (sofar + need) more = delivery data.length sofar script) :
      Collected data sofar need script
        (.ok ((data.drop sofar).take need), ⟨data.drop (sofar + need), more⟩)
  | short {last : Nat} {source : ByteSource} (hshort : last < sofar + need)
      (hend : delivery data.length sofar script = (last, none)) :
      Collected data sofar need script (.ok ((data.drop sofar).take (last - sofar)), source)
  | failed {last : Nat} {cause : IoFailure} {source : ByteSource} (hshort : last < sofar + need)
      (hend : delivery data.length sofar script = (last, some cause)) :
      Collected data sofar need script (.error cause, source)

/-- Reading on in a block after one piece of it. -/
theorem Collected.after_piece {data : Bytes} {size limit : Nat} {bytes : Bytes}
    {source : ByteSource} (hsize : readSize data.length sofar limit = size) (hsome : size ≠ 0)
    (hle : size ≤ need) (hfits : sofar + size ≤ data.length)
    (h : Collected data (sofar + size) (need - size) script (.ok bytes, source)) :
    Collected data sofar need (.upTo limit :: script)
      (.ok ((data.drop sofar).take size ++ bytes), source) := by
  have hdelivery : delivery data.length sofar (.upTo limit :: script) =
      delivery data.length (sofar + size) script := by
    rw [delivery, hsize, if_neg hsome]
  have hcut : ∀ count, size ≤ count → (data.drop sofar).take size ++
      (data.drop (sofar + size)).take (count - size) = (data.drop sofar).take count := by
    intro count hcount
    rw [← List.drop_drop, ← List.take_add, Nat.add_sub_cancel' hcount]
  cases h with
  | whole hmore hdone =>
      have hsum : sofar + size + (need - size) = sofar + need := by omega
      rw [hsum] at hmore hdone ⊢
      rw [hcut need hle]
      exact .whole hmore (hdone.trans hdelivery.symm)
  | @short last _ hshort hend =>
      have hlow := (delivery_bounds script hfits).1
      rw [hend] at hlow
      dsimp only at hlow
      have hcount : last - (sofar + size) = last - sofar - size := by omega
      rw [hcount, hcut (last - sofar) (by omega)]
      exact .short (by omega) (hdelivery.trans hend)

/-- Collecting the rest of a block gets to its end, or to where the delivery ends. -/
theorem collected (data : Bytes) (script : List ReadEvent) (hsofar : sofar ≤ data.length)
    (hneed : sofar % recordSize + need = recordSize) :
    Collected data sofar need script (collect need (data.drop sofar) script) := by
  have hpos : need ≠ 0 := by
    have hlt : sofar % recordSize < recordSize := Nat.mod_lt _ (by decide)
    omega
  induction script generalizing sofar need with
  | nil =>
      rw [collect, List.drop_drop]
      by_cases hfits : sofar + need ≤ data.length
      · exact .whole hfits rfl
      · have hall : (data.drop sofar).take need =
            (data.drop sofar).take (data.length - sofar) := by
          rw [List.take_of_length_le (by rw [List.length_drop]; omega),
            List.take_of_length_le (by simp)]
        rw [hall]
        exact .short (by omega) rfl
  | cons event script ih =>
      cases event with
      | interrupted =>
          have hrest := ih hsofar hneed hpos
          rw [collect, if_neg hpos]
          generalize collect need (data.drop sofar) script = result at hrest
          cases hrest with
          | whole hfits hmore => exact .whole hfits hmore
          | short hshort hend => exact .short hshort hend
          | failed hshort hend => exact .failed hshort hend
      | fails cause =>
          rw [collect, if_neg hpos]
          exact .failed (by omega) rfl
      | upTo limit =>
          have hsize := readSize_eq data.length limit hneed
          generalize hread : readSize data.length sofar limit = size at hsize
          have hpiece : ((data.drop sofar).take (min limit need)).length = size := by
            rw [List.length_take, List.length_drop]
            omega
          have htake : (data.drop sofar).take (min limit need) = (data.drop sofar).take size := by
            rw [List.take_eq_take_iff, List.length_drop]
            omega
          rw [collect, if_neg hpos]
          dsimp only
          rw [hpiece, htake]
          by_cases hzero : size = 0
          · have hnone : ((data.drop sofar).take size).isEmpty = true := by simp [hzero]
            rw [if_pos hnone]
            have hend : delivery data.length sofar (.upTo limit :: script) = (sofar, none) := by
              rw [delivery, hread, if_pos hzero]
            have hshort : Collected data sofar need (.upTo limit :: script)
                (.ok ((data.drop sofar).take (sofar - sofar)), ⟨data.drop sofar, script⟩) :=
              .short (by omega) hend
            rwa [Nat.sub_self, List.take_zero] at hshort
          · have hsome : ¬ ((data.drop sofar).take size).isEmpty = true := by
              rw [List.isEmpty_iff, ← List.length_eq_zero_iff, ← htake, hpiece]
              exact hzero
            have hsum : sofar + size ≤ data.length := by omega
            rw [if_neg hsome, List.drop_drop]
            have hrest : Collected data (sofar + size) (need - size) script
                (collect (need - size) (data.drop (sofar + size)) script) := by
              by_cases hlast : need - size = 0
              · rw [hlast, collect_zero]
                exact .whole hsum rfl
              · refine ih hsum ?_ hlast
                have hblock : recordSize = 536 := rfl
                simp only [hblock] at *
                omega
            generalize hcollect : collect (need - size) (data.drop (sofar + size)) script = result
              at hrest
            obtain ⟨outcome, source⟩ := result
            cases outcome with
            | ok bytes => exact hrest.after_piece hread hzero (by omega) hsum
            | error cause =>
                cases hrest with
                | @failed last _ _ hshort hend =>
                    have hlast : last < sofar + need := by omega
                    refine .failed hlast ?_
                    rw [delivery, hread, if_neg hzero, hend]

end DentryWatch.ByteSource
