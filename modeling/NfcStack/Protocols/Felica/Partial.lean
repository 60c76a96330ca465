import NfcStack.Protocols.Felica.ReadBack
import NfcStack.Reader.Stream

/-!
# Tags with blocks that cannot be read

A tag answers the read of a block that it refuses with a first flag that is not zero. The branch for it in
`felica_poller_read_lite_blocks` is not reached, since every response is asked for 29 bytes before.
-/

namespace NfcStack.Felica

open List NfcStack.Reader Poll

inductive BlockReply
  | readable (bytes : CArray UInt8 blockDataSize)
  | refused (sf1 sf2 : UInt8) (hsf1 : sf1 ≠ 0)

namespace BlockReply

def isReadable : BlockReply → Bool
  | readable _ => true
  | refused _ _ _ => false

def sf1 : BlockReply → UInt8
  | readable _ => 0
  | refused sf1 _ _ => sf1

def sf2 : BlockReply → UInt8
  | readable _ => 0
  | refused _ sf2 _ => sf2

def bytes : BlockReply → Bytes
  | readable bytes => bytes.toList
  | refused _ _ _ => List.replicate blockDataSize 0

def response (idm : CArray UInt8 8) : BlockReply → Bytes
  | readable bytes => [29, 0x07] ++ idm.toList ++ [0, 0, 1] ++ bytes.toList
  | refused sf1 sf2 _ => [12, 0x07] ++ idm.toList ++ [sf1, sf2]

end BlockReply

variable {τ : Type} {s : Session τ} {t₀ : τ} {idm pmm : CArray UInt8 8} {reply : ℕ → BlockReply}
  {t : ℕ → τ} {data : CardData} {k : ℕ}

structure LiteTag (s : Session τ) (t₀ : τ) (idm pmm : CArray UInt8 8) (reply : ℕ → BlockReply)
    (t : ℕ → τ) : Prop where
  active : s.active = true
  workflow : getWorkflowType pmm = .lite
  polling : s.tag.step t₀ pollingFrame =
    some (t 0, .ok (crcAppend ([18, 0x01] ++ idm.toList ++ pmm.toList)))
  reads : ∀ k < blocksLiteTotal,
    s.tag.step (t k) (crcAppend (prepareTxBuffer idm 0x06 0x000B [wireBlock k])) =
      some (t (k + 1), .ok (crcAppend ((reply k).response idm)))

structure Captured (idm pmm : CArray UInt8 8) (reply : ℕ → BlockReply) (k : ℕ) (data : CardData) :
    Prop where
  idm : data.idm = idm
  pmm : data.pmm = pmm
  total : data.blocksTotal.toNat = k
  entries : ∀ i < k, some (reply i).sf1 = data.sf1.get? i ∧ some (reply i).sf2 = data.sf2.get? i ∧
    (reply i).bytes = data.block i
  read : data.blocksRead.toNat = (List.range k).countP fun i => (reply i).isReadable

def PartialCapture (s : Session τ) (t₀ : τ) (idm pmm : CArray UInt8 8) (reply : ℕ → BlockReply) :
    Prop :=
  ∀ out, ∃ data t', pollerRead s out t₀ = some ((data, .ok ()), t') ∧
    Captured idm pmm reply blocksLiteTotal data

variable (h : LiteTag s t₀ idm pmm reply t) (hk : k < blocksLiteTotal)

include h hk

theorem LiteTag.pollerReadBlocks_refused (hreply : (reply k).isReadable = false) :
    pollerReadBlocks s idm [wireBlock k] 0x000B (t k) = some (.error .eio, t (k + 1)) := by
  have hstep := h.reads k hk
  have hlen : ((reply k).response idm).length = 12 := by
    cases hr : reply k with
    | readable bytes => simp [hr, BlockReply.isReadable] at hreply
    | refused sf1 sf2 hsf1 => simp [BlockReply.response]
  have hframe := pollerFrameExchange_of_step h.active (by simp [prepareTxBuffer])
    (by simp [prepareTxBuffer, le16Bytes]) (ne_nil_of_length_pos (by omega)) (by omega) hstep
  rw [pollerReadBlocks, if_neg (by simp), bind_of_eq hframe]
  simp only [hlen]
  rfl

theorem LiteTag.pollerReadBlocks_readable (hreply : (reply k).isReadable = true) :
    ∃ response, pollerReadBlocks s idm [wireBlock k] 0x000B (t k) =
        some (.ok response, t (k + 1)) ∧
      response.sf1 = 0 ∧ response.sf2 = 0 ∧ response.data.toList = (reply k).bytes := by
  have hstep := h.reads k hk
  cases hr : reply k with
  | readable bytes =>
    rw [hr] at hstep
    exact pollerReadBlocks_of_step h.active bytes.length_toList hstep
  | refused sf1 sf2 hsf1 => simp [hr, BlockReply.isReadable] at hreply

omit h hk

theorem BlockReply.flags_of_isReadable {r : BlockReply} (h : r.isReadable = true) :
    r.sf1 = 0 ∧ r.sf2 = 0 := by
  cases r with
  | readable bytes => exact ⟨rfl, rfl⟩
  | refused sf1 sf2 hsf1 => exact absurd h Bool.false_ne_true

theorem Captured.storeBlock (h : Captured idm pmm reply k data) (hk : k < blocksLiteTotal)
    (hreply : (reply k).isReadable = true) {response : ReadResponse} (hsf1 : response.sf1 = 0)
    (hsf2 : response.sf2 = 0) (hdata : response.data.toList = (reply k).bytes) :
    ∃ data', data.storeBlock response = some data' ∧ Captured idm pmm reply (k + 1) data' := by
  have hmax : k < blocksMax := Nat.lt_trans hk (by decide)
  obtain ⟨hzero1, hzero2⟩ := BlockReply.flags_of_isReadable hreply
  have hcount : (List.range k).countP (fun i => (reply i).isReadable) ≤ k := by
    simpa using countP_le_length (p := fun i => (reply i).isReadable) (l := List.range k)
  obtain ⟨data', hstore, hidm, hpmm, htotal, hread, hentries⟩ :=
    CardData.storeBlock_extends h.total hmax hsf1 hsf2 h.entries (congrArg some hzero1)
      (congrArg some hzero2) hdata
  refine ⟨data', hstore, hidm.trans h.idm, hpmm.trans h.pmm, htotal, hentries, ?_⟩
  rw [hread, range_succ, countP_append, countP_singleton, if_pos hreply]
  exact toNat_add_one h.read (by omega)

theorem LiteTag.readLiteLoop_ends (h : LiteTag s t₀ idm pmm reply t) {n : ℕ}
    (hn : k + n = blocksLiteTotal) (hdata : Captured idm pmm reply k data) :
    ∃ m ret t', readLiteLoop s n (wireBlock k) data (t k) = some ((m, ret), t') ∧
      ((ret = .ok () ∧ Captured idm pmm reply blocksLiteTotal m ∧
          ∀ i, k ≤ i → i < blocksLiteTotal → (reply i).isReadable = true) ∨
        (ret = .error .eio ∧ ∃ i, k ≤ i ∧ i < blocksLiteTotal ∧ (reply i).isReadable = false)) := by
  induction n generalizing k data with
  | zero =>
    obtain rfl : k = blocksLiteTotal := hn
    exact ⟨data, .ok (), _, rfl, .inl ⟨rfl, hdata, fun i hki hi => absurd hki (by omega)⟩⟩
  | succ n ih =>
    have hk : k < blocksLiteTotal := by omega
    rw [readLiteLoop, hdata.idm]
    cases hreply : (reply k).isReadable with
    | false =>
      rw [bind_of_eq (h.pollerReadBlocks_refused hk hreply)]
      exact ⟨data, .error .eio, _, rfl, .inr ⟨rfl, k, Nat.le_refl k, hk, hreply⟩⟩
    | true =>
      obtain ⟨response, hread, hsf1, hsf2, hbytes⟩ := h.pollerReadBlocks_readable hk hreply
      obtain ⟨data', hstore, hdata'⟩ := hdata.storeBlock hk hreply hsf1 hsf2 hbytes
      obtain ⟨m, ret, t', hloop, hend⟩ := ih (by omega) hdata'
      rw [bind_of_eq hread]
      simp only [hstore, nextBlockIndex_wireBlock]
      refine ⟨m, ret, t', hloop, ?_⟩
      rcases hend with ⟨hret, hm, hall⟩ | ⟨hret, i, hki, hi, hrefused⟩
      · refine .inl ⟨hret, hm, fun i hki hi => ?_⟩
        rcases Nat.eq_or_lt_of_le hki with rfl | hlt
        · exact hreply
        · exact hall i hlt hi
      · exact .inr ⟨hret, i, by omega, hi, hrefused⟩

theorem LiteTag.pollerRead_ends (h : LiteTag s t₀ idm pmm reply t) (out : CardData) :
    ∃ m ret t', pollerRead s out t₀ = some ((m, ret), t') ∧
      ((ret = .ok () ∧ Captured idm pmm reply blocksLiteTotal m ∧
          ∀ i < blocksLiteTotal, (reply i).isReadable = true) ∨
        (ret = .error .eio ∧ ∃ i < blocksLiteTotal, (reply i).isReadable = false)) := by
  have hpoll := pollerPoll_of_step h.active h.polling .reset
  have hstart : Captured idm pmm reply 0 { CardData.reset with idm := idm, pmm := pmm } :=
    ⟨rfl, rfl, rfl, fun i hi => absurd hi (Nat.not_lt_zero i), rfl⟩
  obtain ⟨m, ret, t', hloop, hend⟩ := h.readLiteLoop_ends (Nat.zero_add _) hstart
  refine ⟨m, ret, t', ?_, ?_⟩
  · rw [pollerRead, if_neg (by simp [h.active])]
    refine (bind_of_eq hpoll _).trans ?_
    simp only [h.workflow]
    refine (bind_of_eq hloop _).trans ?_
    rcases hend with ⟨rfl, hm, -⟩ | ⟨rfl, -⟩
    · have htotal : m.blocksTotal ≠ 0 := by
        intro hzero
        have := hm.total
        rw [hzero] at this
        exact absurd this (by decide)
      simp only [htotal]
      rfl
    · rfl
  · rcases hend with ⟨hret, hm, hall⟩ | ⟨hret, i, -, hi, hrefused⟩
    · exact .inl ⟨hret, hm, fun i hi => hall i (Nat.zero_le i) hi⟩
    · exact .inr ⟨hret, i, hi, hrefused⟩

/-- The blocks of a tag are kept if and only if it refuses none of them. -/
theorem pollerRead_partial_iff (h : LiteTag s t₀ idm pmm reply t) :
    PartialCapture s t₀ idm pmm reply ↔ ∀ k < blocksLiteTotal, (reply k).isReadable = true := by
  constructor
  · intro hcapture
    obtain ⟨data, t', hread, -⟩ := hcapture .reset
    obtain ⟨m, ret, t'', hread', hend⟩ := h.pollerRead_ends .reset
    rw [hread] at hread'
    obtain ⟨⟨-, hret⟩, -⟩ : (data = m ∧ .ok () = ret) ∧ t' = t'' := by simpa using hread'
    rcases hend with ⟨-, -, hall⟩ | ⟨herror, -⟩
    · exact hall
    · exact nomatch hret.trans herror
  · intro hall out
    obtain ⟨m, ret, t', hread, hend⟩ := h.pollerRead_ends out
    rcases hend with ⟨rfl, hm, -⟩ | ⟨-, i, hi, hrefused⟩
    · exact ⟨m, t', hread, hm⟩
    · exact absurd (hall i hi) (by simp [hrefused])

def liteStream (idm pmm : CArray UInt8 8) (reply : ℕ → BlockReply) : Stream
  | 0 => .ok (crcAppend ([18, 0x01] ++ idm.toList ++ pmm.toList))
  | k + 1 => .ok (crcAppend ((reply k).response idm))

theorem liteTag_liteStream (hpmm : getWorkflowType pmm = .lite) :
    LiteTag (streamed (liteStream idm pmm reply)) 0 idm pmm reply (· + 1) where
  active := rfl
  workflow := hpmm
  polling := rfl
  reads _ _ := rfl

theorem pollerRead_partial_liteCard :
    PartialCapture (streamed (liteStream liteCard.idm liteCard.pmm fun _ => .readable (.fill _ 0x46)))
      0 liteCard.idm liteCard.pmm fun _ => .readable (.fill _ 0x46) :=
  (pollerRead_partial_iff (liteTag_liteStream (by decide))).mpr fun _ _ => rfl

def lastRefused (k : ℕ) : BlockReply :=
  if k = 27 then .refused 0x01 0xA8 (by decide) else .readable (.fill _ 0x46)

theorem pollerRead_lastRefused :
    ∃ m t', pollerRead (streamed (liteStream liteCard.idm liteCard.pmm lastRefused)) .reset 0 =
      some ((m, .error .eio), t') := by
  have htag : LiteTag (streamed (liteStream liteCard.idm liteCard.pmm lastRefused)) 0 liteCard.idm
      liteCard.pmm lastRefused (· + 1) := liteTag_liteStream (by decide)
  obtain ⟨m, ret, t', hread, hend⟩ := htag.pollerRead_ends .reset
  rcases hend with ⟨-, -, hall⟩ | ⟨rfl, -⟩
  · exact nomatch hall 27 (by decide)
  · exact ⟨m, t', hread⟩

end NfcStack.Felica
