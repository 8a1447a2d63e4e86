import DentryWatch.Text.Utf8
import DentryWatch.Text.Quoted

/-!
# Name slots

A record stores each path component in a slot of 64 bytes. Filling a slot keeps
at most 63 bytes of a name and zeroes the rest, so a cut may fall inside a
character. What a slot shows is its bytes up to the first zero byte.
-/

namespace DentryWatch

def slotWidth : Nat := 64

def maxNameBytes : Nat := slotWidth - 1

/-- A fixed-width field for one path component. -/
structure NameSlot where
  raw : Bytes
  raw_length : raw.length = slotWidth := by simp [slotWidth]
deriving DecidableEq

namespace NameSlot

theorem ext_raw {a b : NameSlot} (h : a.raw = b.raw) : a = b := by
  cases a; cases b; cases h; rfl

def empty : NameSlot := ⟨List.replicate slotWidth 0, List.length_replicate⟩

instance : Inhabited NameSlot := ⟨empty⟩

def stored (name : Bytes) : Nat := min name.length maxNameBytes

/-- Overwrites a slot with a name, zeroing what lies behind it. -/
def fill (slot : NameSlot) (name : Bytes) : NameSlot where
  raw := name.take maxNameBytes ++ (slot.raw.drop (stored name)).map (fun _ => 0)
  raw_length := by
    have := slot.raw_length
    simp only [List.length_append, List.length_take, List.length_map, List.length_drop, stored,
      maxNameBytes, slotWidth] at this ⊢
    omega

def clear (slot : NameSlot) : NameSlot where
  raw := slot.raw.map (fun _ => 0)
  raw_length := by simpa using slot.raw_length

def ofName (name : Bytes) : NameSlot := empty.fill name

def name (slot : NameSlot) : Bytes := slot.raw.takeWhile (· != 0)

/-- Whether a slot begins with a zero byte. -/
def isEmpty (slot : NameSlot) : Bool := slot.raw.head? == some 0

def text (slot : NameSlot) : String := Utf8.lossy slot.name

def quoted (slot : NameSlot) : String := Text.quoted slot.text

theorem fill_raw (slot : NameSlot) (name : Bytes) :
    (slot.fill name).raw =
      name.take maxNameBytes ++ List.replicate (slotWidth - stored name) 0 := by
  simp [fill, List.map_const', slot.raw_length]

theorem fill_eq_ofName (slot : NameSlot) (name : Bytes) : slot.fill name = ofName name :=
  ext_raw (by rw [ofName, fill_raw, fill_raw])

theorem clear_eq_empty (slot : NameSlot) : slot.clear = empty :=
  ext_raw (by simp [clear, empty, List.map_const', slot.raw_length])

end NameSlot

end DentryWatch
