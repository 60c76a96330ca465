import NfcStack.Lib.CString
import NfcStack.Basic

/-!
# Hexadecimal import

`nfc_store_shell_parse_hex` of `store/nfc_store_shell_cmds.c` and the digits that the dump command of
`store/nfc_store_ram.c` prints. The two characters of a byte go through `strtoul`, which passes over white
space and a sign.
-/

namespace NfcStack.Store

open List

def isSpace (c : UInt8) : Bool := c == 0x20 || (0x09 ≤ c && c ≤ 0x0D)

def digit? (c : UInt8) : Option ℕ :=
  if 0x30 ≤ c ∧ c ≤ 0x39 then some (c.toNat - 0x30)
  else if 0x61 ≤ c ∧ c ≤ 0x66 then some (c.toNat - 0x57)
  else if 0x41 ≤ c ∧ c ≤ 0x46 then some (c.toNat - 0x37)
  else none

def isHexDigit (c : UInt8) : Bool := (digit? c).isSome

def ulongMax : ℕ := 2 ^ 32 - 1

def strtoul16 (s : Bytes) : ℕ × Bytes :=
  let t := s.dropWhile isSpace
  let negative := t.head? == some 0x2D
  let t := if negative || t.head? == some 0x2B then t.tail else t
  let marked := t.head? == some 0x30 && (t[1]? == some 0x78 || t[1]? == some 0x58) &&
    t[2]?.any isHexDigit
  let t := if marked then t.drop 2 else t
  let digits := t.takeWhile isHexDigit
  let n := digits.foldl (fun n c => 16 * n + (digit? c).getD 0) 0
  if digits = [] then (0, s)
  else
    (if ulongMax < n then ulongMax else if negative then (ulongMax + 1 - n) % (ulongMax + 1) else n,
      t.drop digits.length)

def parsePairs : Bytes → Option Bytes
  | a :: b :: rest =>
    let r := strtoul16 [a, b]
    if r.2 = [a, b] ∨ r.2 ≠ [] ∨ 0xFF < r.1 then none
    else (parsePairs rest).map (UInt8.ofNat r.1 :: ·)
  | _ => some []

def shellParseHex (outMax : ℕ) (hex : CString) : Except Errno Bytes :=
  if hex.chars.length = 0 ∨ hex.chars.length % 2 ≠ 0 then .error .einval
  else if outMax < hex.chars.length / 2 then .error .enospc
  else (parsePairs hex.chars).elim (.error .einval) .ok

def hexChar (n : UInt8) : UInt8 := if n < 10 then 0x30 + n else 0x57 + n

def ramDump (blob : Bytes) : Bytes := blob.flatMap fun b : UInt8 => [hexChar (b >>> 4), hexChar (b &&& 0x0F)]

def toLower (c : UInt8) : UInt8 := if 0x41 ≤ c ∧ c ≤ 0x5A then c + 0x20 else c

def isLead (c : UInt8) : Bool := isSpace c || c == 0x2B || c == 0x2D

variable (p : UInt8 × UInt8)

def lenient : Bool :=
  isLead p.1 && isHexDigit p.2 && (p.1 != 0x2D || p.2 == 0x30)

def hexPair : Bool := isHexDigit p.1 && isHexDigit p.2

def pairs : Bytes → List (UInt8 × UInt8)
  | [] | [_] => []
  | a :: b :: rest => (a, b) :: pairs rest

def pairByte : UInt8 := UInt8.ofNat (strtoul16 [p.1, p.2]).1

/-- The import accepts the digits of bytes that fit, with letters of either case, and nothing else. -/
def HexImport (outMax : ℕ) (hex : CString) : Prop :=
  ((∃ out, shellParseHex outMax hex = .ok out) ↔
    hex.chars ≠ [] ∧ 2 ∣ hex.chars.length ∧ hex.chars.length ≤ 2 * outMax ∧
      ∀ c ∈ hex.chars, isHexDigit c = true) ∧
  ∀ out, shellParseHex outMax hex = .ok out → ramDump out = hex.chars.map toLower

/-- In a string that fits, a blank or a plus sign before a digit or a minus sign before a 0 stands for
the two digits of a byte, and every other byte has its digits. -/
def Slack (outMax : ℕ) (hex : CString) : Prop :=
  2 ∣ hex.chars.length ∧ hex.chars.length ≤ 2 * outMax ∧
    (∀ p ∈ pairs hex.chars, hexPair p || lenient p) ∧ ∃ p ∈ pairs hex.chars, lenient p

theorem isHexDigit_of_isLead : ∀ c, isLead c = true → isHexDigit c = false :=
  forall_uint8 (by decide +kernel)

theorem digit_lt : ∀ c, (digit? c).getD 0 < 16 := forall_uint8 (by decide +kernel)

theorem strtoul16_lead : ∀ a, isLead a = true → ∀ b,
    ((strtoul16 [a, b]).2 = [] ∧ (strtoul16 [a, b]).1 ≤ 0xFF ↔ lenient (a, b) = true) :=
  forall_uint8 fun a => by
    intro ha
    exact forall_uint8 (by revert a; decide +kernel)

theorem strtoul16_plain {a : UInt8} (ha : isLead a = false) (b : UInt8) : strtoul16 [a, b] =
    if isHexDigit a then
      if isHexDigit b then (16 * (digit? a).getD 0 + (digit? b).getD 0, [])
      else ((digit? a).getD 0, [b])
    else (0, [a, b]) := by
  simp only [isLead, Bool.or_eq_false_iff, beq_eq_false_iff_ne] at ha
  obtain ⟨⟨hspace, hplus⟩, hminus⟩ := ha
  have ha := digit_lt a
  have hb := digit_lt b
  split_ifs with hda hdb
  · simp [strtoul16, dropWhile, hspace, hminus, hplus, takeWhile, hda, hdb, ulongMax]
    omega
  · simp [strtoul16, dropWhile, hspace, hminus, hplus, takeWhile, hda, hdb, ulongMax]
    omega
  · simp [strtoul16, dropWhile, hspace, hminus, hplus, hda]

theorem strtoul16_pair_iff (a b : UInt8) : (strtoul16 [a, b]).2 = [] ∧ (strtoul16 [a, b]).1 ≤ 0xFF ↔
    (hexPair (a, b) || lenient (a, b)) = true := by
  by_cases hlead : isLead a = true
  · rw [strtoul16_lead a hlead]
    simp [hexPair, isHexDigit_of_isLead a hlead]
  · have ha := digit_lt a
    have hb := digit_lt b
    rw [strtoul16_plain (by simpa using hlead)]
    split_ifs with hda hdb
    · simp [hexPair, hda, hdb]
      omega
    · simp [hexPair, lenient, hdb]
    · simp [hexPair, lenient, hda, hlead]

theorem parsePairs_eq_some_iff (s out : Bytes) : parsePairs s = some out ↔
    (∀ p ∈ pairs s, hexPair p || lenient p) ∧ out = (pairs s).map pairByte := by
  induction s using pairs.induct generalizing out with
  | case1 => exact ⟨fun h => ⟨nofun, (Option.some.inj h).symm⟩, fun h => congrArg some h.2.symm⟩
  | case2 a => exact ⟨fun h => ⟨nofun, (Option.some.inj h).symm⟩, fun h => congrArg some h.2.symm⟩
  | case3 a b rest ih =>
    have hcheck : (strtoul16 [a, b]).2 = [a, b] ∨ (strtoul16 [a, b]).2 ≠ [] ∨
        0xFF < (strtoul16 [a, b]).1 ↔ ¬(hexPair (a, b) || lenient (a, b)) = true := by
      rw [← strtoul16_pair_iff, not_and_or, not_le]
      exact ⟨fun h => h.elim (fun h => .inl (by simp [h])) id, .inr⟩
    simp only [parsePairs, pairs, mem_cons, forall_eq_or_imp, map_cons]
    by_cases hok : (hexPair (a, b) || lenient (a, b)) = true
    · rw [if_neg fun hc => hcheck.mp hc hok, Option.map_eq_some_iff]
      constructor
      · rintro ⟨tail, htail, rfl⟩
        obtain ⟨hall, rfl⟩ := (ih tail).mp htail
        exact ⟨⟨hok, hall⟩, rfl⟩
      · rintro ⟨⟨-, hall⟩, rfl⟩
        exact ⟨_, (ih _).mpr ⟨hall, rfl⟩, rfl⟩
    · rw [if_pos (hcheck.mpr hok)]
      exact ⟨nofun, fun h => absurd h.1.1 hok⟩

theorem hexChars_pairByte {p : UInt8 × UInt8} (h : hexPair p = true) :
    [hexChar (pairByte p >>> 4), hexChar (pairByte p &&& 0x0F)] = [toLower p.1, toLower p.2] := by
  obtain ⟨ha, hb⟩ := Bool.and_eq_true_iff.mp h
  have hlower : ∀ c, isHexDigit c = true → hexChar (UInt8.ofNat ((digit? c).getD 0)) = toLower c :=
    forall_uint8 (by decide +kernel)
  have hnibbles : ∀ m n : Fin 16, UInt8.ofNat (16 * m + n) >>> 4 = UInt8.ofNat m ∧
      UInt8.ofNat (16 * m + n) &&& 0x0F = UInt8.ofNat n := by
    decide +kernel
  have hlead : isLead p.1 = false := by
    by_contra hlead
    simp [isHexDigit_of_isLead p.1 (by simpa using hlead)] at ha
  obtain ⟨hhigh, hlow⟩ := hnibbles ⟨_, digit_lt p.1⟩ ⟨_, digit_lt p.2⟩
  rw [pairByte, strtoul16_plain hlead, if_pos ha, if_pos hb, hhigh, hlow]
  exact congrArg₂ (fun x y => [x, y]) (hlower _ ha) (hlower _ hb)

theorem ramDump_pairs {s : Bytes} (heven : 2 ∣ s.length) :
    ((∀ c ∈ s, isHexDigit c = true) ↔ ∀ p ∈ pairs s, hexPair p = true) ∧
      ((∀ p ∈ pairs s, hexPair p = true) → ramDump ((pairs s).map pairByte) = s.map toLower) := by
  induction s using pairs.induct with
  | case1 => exact ⟨by simp [pairs], fun _ => rfl⟩
  | case2 a => exact absurd heven (by simp)
  | case3 a b rest ih =>
    obtain ⟨hiff, hdump⟩ := ih (by simpa [Nat.add_assoc] using heven)
    refine ⟨by simp [pairs, hiff, hexPair, and_assoc], fun h => ?_⟩
    rw [pairs] at h ⊢
    have hpair := hexChars_pairByte (h (a, b) mem_cons_self)
    have hrest := hdump fun p hp => h p (mem_cons_of_mem _ hp)
    simp only [map_cons, ramDump, flatMap_cons] at hrest ⊢
    rw [hpair, hrest]
    rfl

theorem shellParseHex_eq_ok_iff (outMax : ℕ) (hex : CString) (out : Bytes) :
    shellParseHex outMax hex = .ok out ↔
      (hex.chars ≠ [] ∧ 2 ∣ hex.chars.length ∧ hex.chars.length ≤ 2 * outMax) ∧
        parsePairs hex.chars = some out := by
  rw [shellParseHex, ← length_pos_iff]
  split_ifs with hlen hmax
  · exact ⟨nofun, fun h => by omega⟩
  · exact ⟨nofun, fun h => by omega⟩
  · rw [and_iff_right (by omega)]
    cases parsePairs hex.chars <;> simp

/-- The import reads the digits of a blob and nothing else, unless a character that `strtoul` passes
over stands for one of them. -/
theorem hexImport_iff (outMax : ℕ) (hex : CString) : HexImport outMax hex ↔ ¬Slack outMax hex := by
  unfold HexImport Slack
  simp only [shellParseHex_eq_ok_iff, parsePairs_eq_some_iff]
  generalize hex.chars = s
  by_cases hsize : s ≠ [] ∧ 2 ∣ s.length ∧ s.length ≤ 2 * outMax
  · obtain ⟨hdigits, hdump⟩ := ramDump_pairs hsize.2.1
    rw [hdigits]
    constructor
    · rintro ⟨hiff, -⟩ ⟨-, -, hall, p, hp, hlenient⟩
      have hpair := (hiff.mp ⟨_, hsize, hall, rfl⟩).2.2.2 p hp
      simp only [lenient, hexPair, Bool.and_eq_true] at hlenient hpair
      simp [isHexDigit_of_isLead _ hlenient.1.1] at hpair
    · intro hslack
      have hplain : (∀ p ∈ pairs s, hexPair p || lenient p) → ∀ p ∈ pairs s, hexPair p = true :=
        fun hall p hp => (Bool.or_eq_true_iff.mp (hall p hp)).resolve_right fun h =>
          hslack ⟨hsize.2.1, hsize.2.2, hall, p, hp, h⟩
      refine ⟨⟨?_, ?_⟩, ?_⟩
      · rintro ⟨out, -, hall, -⟩
        exact ⟨hsize.1, hsize.2.1, hsize.2.2, hplain hall⟩
      · rintro ⟨-, -, -, hall⟩
        exact ⟨_, hsize, fun p hp => by simp [hall p hp], rfl⟩
      · rintro out ⟨-, hall, rfl⟩
        exact hdump (hplain hall)
  · refine ⟨?_, fun _ => ⟨⟨fun ⟨_, h, _⟩ => absurd h hsize, fun h => absurd ⟨h.1, h.2.1, h.2.2.1⟩ hsize⟩,
      fun _ h => absurd h.1 hsize⟩⟩
    rintro - ⟨heven, hmax, -, p, hp, -⟩
    refine hsize ⟨?_, heven, hmax⟩
    rintro rfl
    cases hp

theorem blank_imported : shellParseHex 4096 ⟨[0x20, 0x35], by decide⟩ = .ok [5] ∧
    ramDump [5] = [0x30, 0x35] ∧ ¬HexImport 4096 ⟨[0x20, 0x35], by decide⟩ := by
  refine ⟨by decide, by decide, fun h => ?_⟩
  exact absurd (h.2 [5] (by decide)) (by decide)

def hexDigits (b : UInt8) : UInt8 × UInt8 := (hexChar (b >>> 4), hexChar (b &&& 0x0F))

theorem hexDigits_spec : ∀ b, (hexPair (hexDigits b) = true ∧ pairByte (hexDigits b) = b) ∧
    0 ≠ (hexDigits b).1 ∧ 0 ≠ (hexDigits b).2 :=
  forall_uint8 (by decide +kernel)

theorem pairs_ramDump (blob : Bytes) : pairs (ramDump blob) = blob.map hexDigits := by
  induction blob with
  | nil => rfl
  | cons b blob ih => exact congrArg (_ :: ·) ih

/-- What the dump command prints is a string that the import reads as the blob that was dumped. -/
theorem ramDump_imported {blob : Bytes} (hne : blob ≠ []) {outMax : ℕ} (hmax : blob.length ≤ outMax) :
    ∃ hex : CString, hex.chars = ramDump blob ∧ shellParseHex outMax hex = .ok blob := by
  have hnul : 0 ∉ ramDump blob := by
    rw [ramDump, mem_flatMap]
    rintro ⟨b, -, hb⟩
    obtain ⟨-, hhigh, hlow⟩ := hexDigits_spec b
    exact (mem_pair.mp hb).elim hhigh hlow
  have hlen : (ramDump blob).length = 2 * blob.length := by
    simp [ramDump, length_flatMap, Nat.mul_comm]
  have hpos := length_pos_iff.mpr hne
  refine ⟨⟨ramDump blob, hnul⟩, rfl, (shellParseHex_eq_ok_iff ..).mpr ⟨⟨?_, ⟨_, hlen⟩, ?_⟩, ?_⟩⟩
  · rw [← length_pos_iff, hlen]
    omega
  · rw [hlen]
    omega
  · have hbytes : pairByte ∘ hexDigits = id := by
      funext b
      exact (hexDigits_spec b).1.2
    rw [parsePairs_eq_some_iff, pairs_ramDump, map_map, hbytes]
    simp [hexDigits_spec]

theorem ramDump_imported_magic :
    ∃ hex : CString, hex.chars = ramDump [0x4E, 0x46] ∧ shellParseHex 2 hex = .ok [0x4E, 0x46] :=
  ramDump_imported (by decide) (by decide)

end NfcStack.Store
