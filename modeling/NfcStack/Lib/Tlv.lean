import Mathlib.Tactic

/-!
# Data objects of a tag, a length and a value

`Element` has a tag and a length of one byte each. `Objects` is the grammar of the basic encoding rules;
a list that follows it passes the walk of `isObjects`.
-/

namespace Tlv

open List Option UInt8

structure Element where
  tag : UInt8
  value : List UInt8
  short : value.length < 128

namespace Element

def encode (e : Element) : List UInt8 := e.tag :: UInt8.ofNat e.value.length :: e.value

theorem toNat_length (e : Element) : (UInt8.ofNat e.value.length).toNat = e.value.length := by
  have := e.short
  rw [toNat_ofNat']
  omega

end Element

def encode (es : List Element) : List UInt8 := es.flatMap Element.encode

variable (tag : UInt8) (es : List Element)

def lastValue : Option (List UInt8) :=
  es.foldl (fun found e => if e.tag = tag then some e.value else found) none

theorem lastValue_concat (e : Element) :
    lastValue tag (es ++ [e]) = if e.tag = tag then some e.value else lastValue tag es := by
  rw [lastValue, foldl_append]
  rfl

inductive IsTagTail : List UInt8 → Prop
  | last {b : UInt8} (hb : b < 0x80) : IsTagTail [b]
  | more {b : UInt8} {bs : List UInt8} (hb : ¬ b < 0x80) (hbs : IsTagTail bs) : IsTagTail (b :: bs)

inductive IsTag : (constructed : Bool) → List UInt8 → Prop
  | low (b : UInt8) (hb : b &&& 0x1F ≠ 0x1F) : IsTag (b &&& 0x20 ≠ 0) [b]
  | high {b : UInt8} {bs : List UInt8} (hb : b &&& 0x1F = 0x1F) (hbs : IsTagTail bs) :
    IsTag (b &&& 0x20 ≠ 0) (b :: bs)

def bigEndian (bs : List UInt8) : ℕ := bs.foldl (fun n b => 256 * n + b.toNat) 0

inductive IsLength : ℕ → List UInt8 → Prop
  | short (b : UInt8) (hb : b < 0x80) : IsLength b.toNat [b]
  | long {b : UInt8} {bs : List UInt8} (hb : 0x80 < b) (hbs : bs.length = (b &&& 0x7F).toNat) :
    IsLength (bigEndian bs) (b :: bs)

/-- A list of objects, one after the other. -/
inductive Objects : List UInt8 → Prop
  | nil : Objects []
  | cons {constructed : Bool} {tag len value rest : List UInt8} (htag : IsTag constructed tag)
      (hlen : IsLength value.length len) (hvalue : constructed = true → Objects value)
      (hrest : Objects rest) : Objects (tag ++ (len ++ (value ++ rest)))

def IsObject (bytes : List UInt8) : Prop :=
  ∃ constructed tag len value, IsTag constructed tag ∧ IsLength value.length len ∧
    (constructed = true → Objects value) ∧ bytes = tag ++ (len ++ value)

example : IsObject [0x61, 0x08, 0x4F, 0x03, 0xA0, 0x00, 0x01, 0x87, 0x01, 0x01] := by
  have hlast : Objects ([0x87] ++ ([0x01] ++ ([0x01] ++ []))) :=
    .cons (.low 0x87 (by decide)) (.short 1 (by decide)) nofun .nil
  have hboth : Objects ([0x4F] ++ ([0x03] ++ ([0xA0, 0x00, 0x01] ++ [0x87, 0x01, 0x01]))) :=
    .cons (.low 0x4F (by decide)) (.short 3 (by decide)) nofun hlast
  exact ⟨true, [0x61], [0x08], [0x4F, 0x03, 0xA0, 0x00, 0x01, 0x87, 0x01, 0x01],
    .low 0x61 (by decide), .short 8 (by decide), fun _ => hboth, rfl⟩

def dropTagTail : List UInt8 → Option (List UInt8)
  | [] => none
  | b :: bs => if b < 0x80 then some bs else dropTagTail bs

def takeTag : List UInt8 → Option (Bool × List UInt8)
  | [] => none
  | b :: bs =>
    (if b &&& 0x1F = 0x1F then dropTagTail bs else some bs).map (decide (b &&& 0x20 ≠ 0), ·)

def takeLength : List UInt8 → Option (ℕ × List UInt8)
  | [] => none
  | b :: bs =>
    if b < 0x80 then some (b.toNat, bs)
    else if b = 0x80 ∨ bs.length < (b &&& 0x7F).toNat then none
    else some (bigEndian (bs.take (b &&& 0x7F).toNat), bs.drop (b &&& 0x7F).toNat)

def takeObject (bytes : List UInt8) : Option (Bool × List UInt8 × List UInt8) :=
  match takeTag bytes with
  | none => none
  | some (constructed, bytes) =>
    match takeLength bytes with
    | none => none
    | some (n, bytes) =>
      if bytes.length < n then none else some (constructed, bytes.take n, bytes.drop n)

/-- Every object takes two bytes at least, so `fuel` is enough for as many bytes. -/
def isObjects : (fuel : ℕ) → List UInt8 → Bool
  | _, [] => true
  | 0, _ :: _ => false
  | fuel + 1, bytes =>
    match takeObject bytes with
    | none => false
    | some (constructed, value, rest) =>
      (!constructed || isObjects fuel value) && isObjects fuel rest

theorem IsTagTail.dropTagTail {bs : List UInt8} (h : IsTagTail bs) (rest : List UInt8) :
    dropTagTail (bs ++ rest) = some rest := by
  induction h with
  | last hb => exact if_pos hb
  | more hb _ ih => exact (if_neg hb).trans ih

variable {constructed : Bool} {tag : List UInt8}

theorem IsTag.takeTag (h : IsTag constructed tag)
    (rest : List UInt8) : takeTag (tag ++ rest) = some (constructed, rest) := by
  cases h with
  | low b hb => rw [singleton_append, Tlv.takeTag, if_neg hb, map_some]
  | high hb hbs =>
    rw [cons_append, Tlv.takeTag, if_pos hb, hbs.dropTagTail rest, map_some]

variable {len : List UInt8}

theorem IsLength.takeLength {n : ℕ} (h : IsLength n len) (rest : List UInt8) :
    takeLength (len ++ rest) = some (n, rest) := by
  cases h with
  | short b hb => exact if_pos hb
  | @long b bs hb hbs =>
    have hne : ¬ (b = 0x80 ∨ (bs ++ rest).length < (b &&& 0x7F).toNat) := by
      rintro (rfl | hlt)
      · exact absurd hb (by decide)
      · rw [length_append] at hlt
        omega
    rw [cons_append, Tlv.takeLength, if_neg (UInt8.not_lt.mpr (UInt8.le_of_lt hb)), if_neg hne,
      ← hbs, take_left, drop_left]

theorem takeObject_append {value : List UInt8}
    (htag : IsTag constructed tag) (hlen : IsLength value.length len) (rest : List UInt8) :
    takeObject (tag ++ (len ++ (value ++ rest))) = some (constructed, value, rest) := by
  simp only [takeObject, htag.takeTag, hlen.takeLength]
  rw [if_neg (by simp), take_left, drop_left]

theorem IsTag.length_pos (h : IsTag constructed tag) : 0 < tag.length := by
  cases h with
  | low b hb => exact Nat.one_pos
  | high hb hbs => exact Nat.succ_pos _

theorem Objects.isObjects {bytes : List UInt8} (h : Objects bytes) {fuel : ℕ}
    (hfuel : bytes.length ≤ fuel) : isObjects fuel bytes = true := by
  induction h generalizing fuel with
  | nil => cases fuel <;> rfl
  | @cons constructed tag len value rest htag hlen hvalue hrest ihvalue ihrest =>
    have hpos := htag.length_pos
    rw [length_append, length_append, length_append] at hfuel
    obtain ⟨fuel, rfl⟩ : ∃ n, fuel = n + 1 := ⟨fuel - 1, by omega⟩
    obtain ⟨b, bs, hbytes⟩ := exists_cons_of_length_pos
      (show 0 < (tag ++ (len ++ (value ++ rest))).length by rw [length_append]; omega)
    rw [hbytes, Tlv.isObjects, ← hbytes, takeObject_append htag hlen]
    · cases constructed with
      | false => simpa using ihrest (by omega)
      | true => simpa using ⟨ihvalue rfl (by omega), ihrest (by omega)⟩
    · simp

theorem IsObject.rest {b n : UInt8} {rest : List UInt8} (h : IsObject (b :: n :: rest))
    (hb : b &&& 0x1F ≠ 0x1F) (hn : n < 0x80) :
    rest.length = n.toNat ∧ (b &&& 0x20 ≠ 0 → isObjects rest.length rest = true) := by
  obtain ⟨constructed, tag, len, value, htag, hlen, hvalue, hbytes⟩ := h
  have htake := takeObject_append htag hlen []
  rw [append_nil, ← hbytes] at htake
  simp only [takeObject, takeTag, if_neg hb, map_some, takeLength, if_pos hn] at htake
  split at htake
  · cases htake
  · simp only [some.injEq, Prod.mk.injEq, drop_eq_nil_iff] at htake
    obtain ⟨rfl, hval, hle⟩ := htake
    rw [take_of_length_le hle] at hval
    refine ⟨by omega, fun hc => ?_⟩
    rw [hval]
    exact (hvalue (decide_eq_true hc)).isObjects (Nat.le_refl _)

end Tlv
