import NfcStack.Framing.Assembler
import NfcStack.Lib.WorkQueue

/-!
# Transport backends

What the two backends share: the types of `nfc_transport.h`, the pool, the size check of
`nfc_apdu_asm.c`, and the FIFO with the handler that empties it. A buffer is named by its index.
-/

namespace NfcStack.Hal

open List

inductive TransportState
  | uninitialized | initialized | started | stopped
deriving DecidableEq, Repr

structure Uid where
  bytes : CArray UInt8 10
  len : UInt8
deriving DecidableEq, Repr

def uidLenValid (len : UInt8) : Bool := len == 4 || len == 7 || len == 10

structure Config where
  bufSize : ℕ
  poolCount : ℕ
  bufSize_range : 64 ≤ bufSize ∧ bufSize ≤ 512
  poolCount_range : 1 ≤ poolCount ∧ poolCount ≤ 16

theorem default_bufSize_range : 64 ≤ 512 ∧ 512 ≤ 512 := by decide

theorem default_poolCount_range : 1 ≤ 4 ∧ 4 ≤ 16 := by decide

def Config.default : Config := ⟨512, 4, default_bufSize_range, default_poolCount_range⟩

variable {cfg : Config}

inductive AsmDrop
  | ok | nobuf | oversize
deriving DecidableEq, Repr

def apduFragFits (curLen fragLen bufCap : ℕ) : Bool := decide ((curLen + fragLen) % 2 ^ 32 ≤ bufCap)

def apduAsmOnFrag (drop : AsmDrop) (curLen fragLen bufCap : ℕ) : AsmDrop :=
  if drop ≠ .ok then drop
  else if apduFragFits curLen fragLen bufCap then .ok
  else .oversize

abbrev BufId (cfg : Config) := Fin cfg.poolCount

def firstBuf : BufId cfg := ⟨0, cfg.poolCount_range.1⟩

structure Buf (cfg : Config) where
  id : BufId cfg
  data : Bytes
  length_le : data.length ≤ cfg.bufSize
deriving DecidableEq, Repr

def Buf.empty (id : BufId cfg) : Buf cfg := ⟨id, [], Nat.zero_le _⟩

/-- The bytes of a frame in memory. Together with a buffer they are shorter than the address space,
since both are objects of the same program. -/
structure Fragment (cfg : Config) where
  data : Bytes
  more : Bool
  addressable : cfg.bufSize + data.length < 2 ^ 32
deriving DecidableEq, Repr

theorem apduAsmOnFrag_eq_oversize (buf : Buf cfg) (frag : Fragment cfg) :
    apduAsmOnFrag .ok buf.data.length frag.data.length cfg.bufSize = .oversize ↔
      cfg.bufSize < buf.data.length + frag.data.length := by
  have hbuf := buf.length_le
  have hfrag := frag.addressable
  rw [apduAsmOnFrag, if_neg (by simp), apduFragFits, Nat.mod_eq_of_lt (by omega)]
  split
  · next h => simpa using h
  · next h => simpa using h

theorem length_append_le {buf : Buf cfg} {frag : Fragment cfg}
    (h : ¬apduAsmOnFrag .ok buf.data.length frag.data.length cfg.bufSize = .oversize) :
    (buf.data ++ frag.data).length ≤ cfg.bufSize := by
  rw [apduAsmOnFrag_eq_oversize, not_lt] at h
  rwa [length_append]

def Buf.add (buf : Buf cfg) (frag : Fragment cfg)
    (h : ¬apduAsmOnFrag .ok buf.data.length frag.data.length cfg.bufSize = .oversize) : Buf cfg :=
  ⟨buf.id, buf.data ++ frag.data, length_append_le h⟩

structure Stats where
  fieldOnCount : UInt32 := 0
  fieldOffCount : UInt32 := 0
  fragmentRxCount : UInt32 := 0
  apduAssembledCount : UInt32 := 0
  fragDroppedNoBuffer : UInt32 := 0
  apduOversizedCount : UInt32 := 0
  apduDroppedNoConsumer : UInt32 := 0
deriving DecidableEq, Repr

inductive Callback
  | fieldOn | fieldOff
  | apdu (data : Bytes)
deriving DecidableEq, Repr

def Callback.isApdu : Callback → Bool
  | .apdu _ => true
  | .fieldOn | .fieldOff => false

inductive Effect (cfg : Config)
  /-- A buffer is taken from the pool. -/
  | alloc (id : BufId cfg)
  /-- A buffer is given back. -/
  | release (id : BufId cfg)
  /-- An event for which a callback is going to be called: a field event whose work item is queued,
  an APDU that is put into the FIFO. -/
  | requested (c : Callback)
  /-- A callback is called. -/
  | invoked (c : Callback)
  /-- The receive handler starts to wait for a frame. -/
  | waits
  /-- `s_sw_wrong_length` is sent instead of passing the command on. -/
  | wrongLength
  /-- The callee rejects the APDU with `s_sw_reject_buf`. -/
  | rejected
  /-- The callee dispatches the APDU to the router. -/
  | dispatched (apdu : Apdu)
deriving DecidableEq, Repr

structure Assembler where
  initialized : Bool
  extendedApduSupport : Bool
deriving DecidableEq, Repr

def onApduHandler (a : Assembler) (buf : Buf cfg) : List (Effect cfg) :=
  if !a.initialized then [.release buf.id]
  else
    match Framing.apduParse a.extendedApduSupport buf.data with
    | none => [.rejected, .release buf.id]
    | some apdu => [.dispatched apdu, .release buf.id]

structure Inbox (cfg : Config) where
  fifo : List (Buf cfg)
  held : Option (Buf cfg)
  used : Finset (BufId cfg)
  stats : Stats
deriving DecidableEq

namespace Inbox

def empty : Inbox cfg := ⟨[], none, ∅, {}⟩

/-- The progress of the thread inside of `apdu_work_handler`: the callback returns, or the next
buffer is taken from the FIFO. -/
def turn (consumer : Bool) (a : Assembler) (b : Inbox cfg) : Inbox cfg × List (Effect cfg) × Bool :=
  match b.held, b.fifo with
  | some buf, _ =>
    ({ b with held := none, used := b.used.erase buf.id }, onApduHandler a buf, false)
  | none, [] => (b, [], true)
  | none, buf :: rest =>
    if consumer then
      ({ b with fifo := rest, held := some buf }, [.invoked (.apdu buf.data)], false)
    else
      ({ b with
          fifo := rest
          used := b.used.erase buf.id
          stats.apduDroppedNoConsumer := b.stats.apduDroppedNoConsumer + 1 },
        [.release buf.id], false)

end Inbox

variable (o : List (Effect cfg))

def allocs : List (BufId cfg) :=
  o.filterMap fun
    | .alloc id => some id
    | _ => none

def releases : List (BufId cfg) :=
  o.filterMap fun
    | .release id => some id
    | _ => none

def apdus : List Bytes :=
  o.filterMap fun
    | .requested (.apdu data) => some data
    | _ => none

variable (o o' : List (Effect cfg))

theorem allocs_append : allocs (o ++ o') = allocs o ++ allocs o' :=
  filterMap_append

theorem releases_append : releases (o ++ o') = releases o ++ releases o' :=
  filterMap_append

theorem apdus_append : apdus (o ++ o') = apdus o ++ apdus o' :=
  filterMap_append

variable (ids : List (BufId cfg))

theorem allocs_map_alloc : allocs (ids.map Effect.alloc) = ids := by
  simp [allocs, filterMap_map]

theorem allocs_map_release : allocs (ids.map Effect.release) = [] := by
  simp [allocs]

theorem releases_map_release : releases (ids.map Effect.release) = ids := by
  simp [releases, filterMap_map]

theorem releases_map_alloc : releases (ids.map Effect.alloc) = [] := by
  simp [releases]

variable (a : Assembler)

theorem ledger_onApduHandler (buf : Buf cfg) :
    allocs (onApduHandler a buf) = [] ∧ releases (onApduHandler a buf) = [buf.id] := by
  unfold onApduHandler
  split
  · exact ⟨rfl, rfl⟩
  · split
    · exact ⟨rfl, rfl⟩
    · exact ⟨rfl, rfl⟩

def requested (o : List (Effect cfg)) : List Callback :=
  o.filterMap fun
    | .requested c => some c
    | _ => none

def invoked (o : List (Effect cfg)) : List Callback :=
  o.filterMap fun
    | .invoked c => some c
    | _ => none

theorem requested_append : requested (o ++ o') = requested o ++ requested o' :=
  filterMap_append

theorem invoked_append : invoked (o ++ o') = invoked o ++ invoked o' :=
  filterMap_append

theorem requested_release : requested (ids.map Effect.release) = [] := by
  simp [requested]

theorem invoked_release : invoked (ids.map Effect.release) = [] := by
  simp [invoked]

theorem requested_alloc : requested (ids.map Effect.alloc) = [] := by
  simp [requested]

theorem invoked_alloc : invoked (ids.map Effect.alloc) = [] := by
  simp [invoked]

theorem callbacks_onApduHandler (buf : Buf cfg) :
    requested (onApduHandler a buf) = [] ∧ invoked (onApduHandler a buf) = [] := by
  unfold onApduHandler
  split
  · exact ⟨rfl, rfl⟩
  · split
    · exact ⟨rfl, rfl⟩
    · exact ⟨rfl, rfl⟩

end NfcStack.Hal
