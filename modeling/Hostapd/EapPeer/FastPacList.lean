import Hostapd.EapPeer.FastPac
import Hostapd.Lib.Checked
import Hostapd.Lib.Linked
import Hostapd.Lib.Nodes
import Hostapd.Lib.Run

/-!
# EAP-FAST at the peer: the list of PACs

The functions of `eap_fast_pac.c` that change the list of PACs, with the list in memory and with
allocations that fail.

* **`PacList`**: the memory, the root of the list, and the entry that is in use.
* **`PacList.Intact`**: what the list has to be, and **`Fine`**: when a step keeps it so.
* **`pac_list_intact`**: along a run of such steps, it is, and an entry that is added is a copy, and
  the only one.
-/

namespace Hostapd.EapPeer

open Hostapd.Lib Nodes

/-- An entry of the list; `lostLen` is `a_id_len` where there is no A-ID. -/
structure PacEntry extends EapFastPac where
  lostLen : ℕ
  deriving DecidableEq

def zeroedPac : PacEntry :=
  ⟨⟨List.replicate eapFastPacKeyLen 0, none, none, none, none, none, 0⟩, 0⟩

/-- The memory, and the pointers `pac` and `current_pac` of EAP-FAST. -/
structure PacList where
  nodes : Nodes PacEntry
  root : Option ℕ
  current : Option ℕ
  /-- the entries that have been added, which the source does not keep -/
  added : List ℕ

namespace PacList

def init : PacList := ⟨Nodes.empty, none, none, []⟩

def alloc (s : PacList) (e : PacEntry) : PacList := { s with nodes := s.nodes.alloc e }

def set (s : PacList) (a : ℕ) (n : Option (Node PacEntry)) : Except MemFault PacList := do
  let nodes ← s.nodes.set a n
  return { s with nodes := nodes }

/-- Source: `eap_fast_free_pac`. -/
def free (s : PacList) (a : ℕ) : Except MemFault PacList := s.set a none

def link (s : PacList) (prev p : Option ℕ) : Except MemFault PacList := do
  let (nodes, root) ← s.nodes.relink s.root prev p
  return { s with nodes := nodes, root := root }

def walk (s : PacList) (stop : ℕ → PacEntry → Except MemFault Bool) :
    Except MemFault (Option ℕ × Option ℕ) :=
  s.nodes.walk stop s.nodes.fresh 0 none s.root

end PacList

/-! ## Adding and removing -/

/-- Whether an entry is the one that is searched. The A-ID is compared where the lengths agree. -/
def pacMatches (aId : Bytes) (pacType : ℕ) (e : PacEntry) : Except MemFault Bool :=
  if e.pacType = pacType then
    match e.aId with
    | some a => .ok (a = aId)
    | none =>
      if e.lostLen ≠ aId.length then .ok false else if aId = [] then .ok true else .error .null
  else .ok false

def eapFastGetPac (aId : Bytes) (pacType : ℕ) (s : PacList) : Except MemFault (Option ℕ) := do
  let (_, pac) ← s.walk fun _ => pacMatches aId pacType
  return pac

def eapFastRemovePac (aId : Bytes) (pacType : ℕ) (s : PacList) : Except MemFault PacList := do
  let (prev, pac) ← s.walk fun _ => pacMatches aId pacType
  match pac with
  | none => return s
  | some a => do
    let n ← s.nodes.read a
    let s ← s.link prev n.next
    let s ← s.free a
    return { s with current := if s.current = some a then none else s.current }

def eapFastCopyBuf (mem : Bool) : Option Bytes → Option (Option Bytes)
  | none => some none
  | some src => if mem then some (some src) else none

/-- The buffers of a new entry, whose allocations are numbered from 1. -/
def copyPac (mem : ℕ → Bool) (entry : EapFastPac) : Option PacEntry := do
  let pacOpaque ← eapFastCopyBuf (mem 1) entry.pacOpaque
  let pacInfo ← eapFastCopyBuf (mem 2) entry.pacInfo
  let aId ← eapFastCopyBuf (mem 3) entry.aId
  let iId ← eapFastCopyBuf (mem 4) entry.iId
  let aIdInfo ← eapFastCopyBuf (mem 5) entry.aIdInfo
  return ⟨⟨entry.pacKey, pacOpaque, pacInfo, aId, iId, aIdInfo, entry.pacType⟩, 0⟩

/-- `mem` tells which allocations succeed. -/
def eapFastAddPac (mem : ℕ → Bool) (entry : EapFastPac) (s : PacList) :
    Except MemFault (Bool × PacList) :=
  match entry.aId with
  | none => .ok (false, s)
  | some aId => do
    let s ← eapFastRemovePac aId entry.pacType s
    if mem 0 then
      let a := s.nodes.fresh
      let s := s.alloc zeroedPac
      match copyPac mem entry with
      | none => do
        let s ← s.free a
        return (false, s)
      | some e => do
        let s ← s.set a (some ⟨e, s.root⟩)
        return (true, { s with root := some a, added := a :: s.added })
    else return (false, s)

def eapFastPacListTruncate (maxLen : ℕ) (s : PacList) : Except MemFault PacList := do
  let (prev, pac) ← s.walk fun i _ => .ok (maxLen ≤ i)
  if pac.isNone ∨ prev.isNone then return s
  else
    let s ← s.link prev none
    let nodes ← s.nodes.freeAll s.nodes.fresh pac
    return { s with nodes := nodes }

/-- The list is freed with the method. Source: `eap_fast_deinit`. -/
def eapFastDeinit (s : PacList) : Except MemFault PacList := do
  let nodes ← s.nodes.freeAll s.nodes.fresh s.root
  return { s with nodes := nodes }

/-! ## Loading text -/

structure PacFile where
  blob : Bool
  data : Bytes

/-- A line of a file goes up to its newline, or fills the line buffer. Source: `fgets`. -/
def fgetsLine (pos : Bytes) : Option ((Bytes × Option Bytes) × Bytes) :=
  let n := min (lineBufLen - 1) ((pos.takeWhile (· ≠ newline)).length + 1)
  if pos = [] then none else some (splitLine (lineText (pos.take n)), pos.drop n)

def readLines (read : Bytes → Option ((Bytes × Option Bytes) × Bytes)) :
    ℕ → Bytes → List (Bytes × Option Bytes)
  | 0, _ => []
  | n + 1, pos =>
    match read pos with
    | none => []
    | some (line, pos) => line :: readLines read n pos

def PacFile.lines (file : PacFile) : List (Bytes × Option Bytes) :=
  readLines (if file.blob then eapFastReadLine else fgetsLine) file.data.length file.data

inductive LineEffect
  | start | finish | skip | failed
  | set (f : PacField × PacValue)
  /-- `atoi` is called with NULL -/
  | null

/-- `mem` tells whether there is memory for the entry or for the field. -/
def lineEffect (mem inBlock : Bool) (line : Bytes × Option Bytes) : LineEffect :=
  if line.1 = ascii "START" then if inBlock || !mem then .failed else .start
  else if line.1 = ascii "END" then if inBlock then .finish else .failed
  else if !inBlock then .failed
  else
    match fieldOf line.1 with
    | none => .skip
    | some f =>
      if f ≠ .pacType ∧ mem = false then .failed
      else
        match parseField f line.2 with
        | .ok v => .set (f, v)
        | .error .nullType => .null
        | .error _ => .failed

/-- The lines behind the header, with the entry of the block. The allocations are numbered by the
lines that are left. Source: `eap_fast_load_pac`. -/
def loadLinesAt (mem : ℕ → Bool) : List (Bytes × Option Bytes) → PacList → Option ℕ →
    Except MemFault (Bool × PacList × Option ℕ)
  | [], s, pac => .ok (true, s, pac)
  | line :: ls, s, pac =>
    match lineEffect (mem ls.length) pac.isSome line with
    | .start =>
      loadLinesAt mem ls (s.alloc { zeroedPac with pacType := pacTypeTunnelPac }) s.nodes.fresh
    | .finish => do
      let (last, _) ← s.walk fun _ _ => .ok false
      let s ← s.link last pac
      loadLinesAt mem ls s none
    | .skip => loadLinesAt mem ls s pac
    | .set f =>
      match pac with
      | none => .error .null
      | some a => do
        let n ← s.nodes.read a
        let s ← s.set a (some { n with val := { n.val with toEapFastPac := n.val.set f } })
        loadLinesAt mem ls s (some a)
    | .null => .error .null
    | .failed => .ok (false, s, pac)

/-- An entry whose block is not terminated is freed. -/
def freeOpen (s : PacList) : Option ℕ → Except MemFault (Bool × PacList)
  | none => .ok (true, s)
  | some a => do
    let s ← s.free a
    return (false, s)

/-- Source: `eap_fast_load_pac`. -/
def eapFastLoadText (mem : ℕ → Bool) (file : Option PacFile) (s : PacList) :
    Except MemFault (Bool × PacList) :=
  match file with
  | none => .ok (true, s)
  | some file =>
    match file.lines with
    | [] => .ok (false, s)
    | header :: ls =>
      if header.1 ≠ pacFileHdr then .ok (false, s)
      else do
        let (ok, s, pac) ← loadLinesAt mem ls s none
        let (closed, s) ← freeOpen s pac
        return (ok && closed, s)

/-! ## Loading the binary format -/

/-- The A-ID and its name are copied from PAC-Info. The allocations are numbered by the octets that
are left. Source: `eap_fast_pac_get_a_id`. -/
def pacGetAId (mem : ℕ → Bool) : ℕ → Bytes → PacEntry → Except Stop PacEntry
  | 0, _, e => .ok e
  | n + 1, pos, e =>
    if pos.length ≤ 4 then .ok e
    else do
      let type ← rdBe16 pos 0
      let len ← rdBe16 pos 2
      if pos.length < 4 + len then return e
      else
        let value ← rdSlice pos 4 (4 + len)
        if type = pacTypeAId then
          if mem pos.length then
            pacGetAId mem n (pos.drop (4 + len)) { e with aId := some value }
          else return { e with aId := none, lostLen := (e.aId.map List.length).getD e.lostLen }
        else if type = pacTypeAIdInfo then
          if mem pos.length then
            pacGetAId mem n (pos.drop (4 + len)) { e with aIdInfo := some value }
          else return { e with aIdInfo := none }
        else pacGetAId mem n (pos.drop (4 + len)) e

/-- A record that has its fixed fields, and what stands behind it. Source:
`eap_fast_load_pac_bin`. -/
def loadRecord (mem : ℕ → Bool) (pos : Bytes) : Except Stop (Option (PacEntry × Bytes)) := do
  let pacType ← rdBe16 pos 0
  let pacKey ← rdSlice pos 2 34
  let opaqueLen ← rdBe16 pos 34
  if pos.length < 36 + opaqueLen + 2 ∨ mem 1 = false then return none
  else
    let pacOpaque ← rdSlice pos 36 (36 + opaqueLen)
    let infoLen ← rdBe16 pos (36 + opaqueLen)
    let info := 36 + opaqueLen + 2
    if pos.length < info + infoLen ∨ mem 2 = false then return none
    else
      let pacInfo ← rdSlice pos info (info + infoLen)
      let e ← pacGetAId (fun n => mem (3 + n)) infoLen pacInfo
        ⟨⟨pacKey, some pacOpaque, some pacInfo, none, none, none, pacType⟩, 0⟩
      return some (e, pos.drop (info + infoLen))

/-- The entry at `pac` is freed, if there is one. Source: `parse_fail`. -/
def parseFail (s : PacList) (pac : Option ℕ) : Except MemFault (Bool × PacList) := do
  let (_, s) ← freeOpen s pac
  return (false, s)

/-- The records of a file. At the head of the loop `pac` is `prev`, the entry that has been linked
last. The allocations are numbered by the octets that are left, and within a record. -/
def loadRecords (mem : ℕ → ℕ → Bool) : ℕ → Bytes → PacList → Option ℕ →
    Except MemFault (Bool × PacList)
  | 0, _, _, _ => .error .endless
  | n + 1, pos, s, prev =>
    if pos = [] then .ok (true, s)
    else if pos.length < 2 + 32 + 2 + 2 then parseFail s prev
    else if mem pos.length 0 = false then parseFail s none
    else
      let a := s.nodes.fresh
      let s := s.alloc zeroedPac
      match loadRecord (mem pos.length) pos with
      | .error _ => .error .outside
      | .ok none => parseFail s (some a)
      | .ok (some (e, pos)) => do
        let s ← s.set a (some ⟨e, none⟩)
        let s ← s.link prev (some a)
        loadRecords mem n pos s (some a)

/-- Source: `eap_fast_load_pac_bin`. -/
def eapFastLoadBin (mem : ℕ → ℕ → Bool) (data : Option Bytes) (s : PacList) :
    Except MemFault (Bool × PacList) :=
  let s := { s with root := none }
  match data with
  | none => .ok (true, s)
  | some data =>
    if data = [] then .ok (true, s)
    else if data.length < 6 ∨ beNat (data.take 4) ≠ eapFastPacBinaryMagic ∨
        be16 (data.drop 4) ≠ eapFastPacBinaryFormatVersion then .ok (false, s)
    else loadRecords mem data.length (data.drop 6) s none

/-! ## Runs -/

inductive PacOp
  | loadText (mem : ℕ → Bool) (file : Option PacFile)
  | loadBin (mem : ℕ → ℕ → Bool) (data : Option Bytes)
  | add (mem : ℕ → Bool) (entry : EapFastPac)
  | truncate (maxLen : ℕ)
  /-- an entry is taken into use -/
  | select (aId : Bytes) (pacType : ℕ)

def pacStep (s : PacList) : PacOp → Except MemFault PacList
  | .loadText mem file => (eapFastLoadText mem file s).map Prod.snd
  | .loadBin mem data => (eapFastLoadBin mem data s).map Prod.snd
  | .add mem entry => (eapFastAddPac mem entry s).map Prod.snd
  | .truncate maxLen => eapFastPacListTruncate maxLen s
  | .select aId pacType => do
    let pac ← eapFastGetPac aId pacType s
    return { s with current := pac }

def pacNext (x : Except MemFault PacList) (op : PacOp) : Except MemFault PacList :=
  x.bind fun s => pacStep s op

def pacRun (ops : List PacOp) : Except MemFault PacList := run pacNext (.ok PacList.init) ops

/-! ## What the list has to be -/

def SamePac (e e' : PacEntry) : Prop := e.pacType = e'.pacType ∧ e.aId = e'.aId

/-- The root points to a list of allocated entries. -/
def PacList.IsList (s : PacList) (l : List (ℕ × PacEntry)) : Prop :=
  s.root = addr l ∧ s.nodes.Linked l

/-- The list of allocated entries is finite and has no entry twice, the entry in use is allocated,
the entries that were added differ in their A-ID or type, and the list can be freed. -/
def PacList.Intact (s : PacList) : Prop :=
  ∃ l, s.IsList l ∧ (addrs l).Nodup ∧
    (∀ a, s.current = some a → (s.nodes.node a).isSome) ∧
    (l.filter fun p => p.1 ∈ s.added).Pairwise (fun p q => ¬ SamePac p.2 q.2) ∧
    ∃ s', eapFastDeinit s = .ok s'

/-- The list of added entries in front, and the entries that were loaded behind them. -/
structure PacList.Holds (s : PacList) (l₁ l₂ : List (ℕ × PacEntry)) : Prop where
  root : s.root = addr (l₁ ++ l₂)
  linked : s.nodes.Linked (l₁ ++ l₂)
  current : ∀ a, s.current = some a → (s.nodes.node a).isSome
  added : ∀ a ∈ s.added, a < s.nodes.fresh
  front : ∀ p ∈ l₁, p.1 ∈ s.added ∧ p.2.aId.isSome
  back : ∀ p ∈ l₂, p.1 ∉ s.added
  distinct : l₁.Pairwise fun p q => ¬ SamePac p.2 q.2

/-- An entry that is allocated, and not in the list yet. -/
def PacList.Held (s : PacList) (l : List (ℕ × PacEntry)) (a : ℕ) (e : PacEntry) : Prop :=
  s.nodes.node a = some ⟨e, none⟩ ∧ a ∉ addrs l ∧ s.current ≠ some a ∧ a ∉ s.added

section Lists

variable {s : PacList} {l₁ l₂ : List (ℕ × PacEntry)} {a : ℕ} {e : PacEntry}

theorem PacList.Holds.intact (h : s.Holds l₁ l₂) : s.Intact := by
  obtain ⟨nodes, hfree, -⟩ := freeAll_linked h.linked h.linked.length_le
  refine ⟨l₁ ++ l₂, ⟨h.root, h.linked⟩, h.linked.nodup, h.current, ?_,
    { s with nodes := nodes }, ?_⟩
  · have hfront : (l₁.filter fun p => p.1 ∈ s.added) = l₁ :=
      List.filter_eq_self.mpr fun p hp => by simpa using (h.front p hp).1
    have hback : (l₂.filter fun p => p.1 ∈ s.added) = [] :=
      List.filter_eq_nil_iff.mpr fun p hp => by simpa using h.back p hp
    rw [List.filter_append, hfront, hback, List.append_nil]
    exact h.distinct
  · rw [eapFastDeinit, h.root, hfree]
    rfl

theorem PacList.Holds.frame (h : s.Holds l₁ l₂) {nodes : Nodes PacEntry}
    (hsame : ∀ a ∈ addrs (l₁ ++ l₂), nodes.node a = s.nodes.node a)
    (hcurrent : ∀ a, s.current = some a → (nodes.node a).isSome)
    (hfresh : s.nodes.fresh ≤ nodes.fresh) : PacList.Holds { s with nodes := nodes } l₁ l₂ where
  root := h.root
  linked := h.linked.congr hsame
  current := hcurrent
  added a ha := Nat.lt_of_lt_of_le (h.added a ha) hfresh
  front := h.front
  back := h.back
  distinct := h.distinct

theorem PacList.Holds.alloc (h : s.Holds l₁ l₂) (e : PacEntry) :
    (s.alloc e).Holds l₁ l₂ ∧ (s.alloc e).Held (l₁ ++ l₂) s.nodes.fresh e := by
  have hunused := s.nodes.unused s.nodes.fresh le_rfl
  have hnot : s.nodes.fresh ∉ addrs (l₁ ++ l₂) := by
    intro hmem
    have hlive := h.linked.live hmem
    rw [hunused] at hlive
    cases hlive
  have hcurrent : s.current ≠ some s.nodes.fresh := by
    intro heq
    have hlive := h.current _ heq
    rw [hunused] at hlive
    cases hlive
  have hother {b : ℕ} (hb : b ≠ s.nodes.fresh) : (s.nodes.alloc e).node b = s.nodes.node b :=
    Function.update_of_ne hb _ _
  refine ⟨h.frame ?_ ?_ (Nat.le_succ _), Function.update_self _ _ _, hnot, hcurrent, ?_⟩
  · intro b hb
    refine hother ?_
    rintro rfl
    exact hnot hb
  · intro b hb
    rw [hother]
    · exact h.current b hb
    · rintro rfl
      exact hcurrent hb
  · intro hmem
    exact absurd (h.added _ hmem) (lt_irrefl _)

theorem PacList.Holds.set (h : s.Holds l₁ l₂) (ha : s.Held (l₁ ++ l₂) a e)
    (n : Option (Node PacEntry)) : ∃ s', s.set a n = .ok s' ∧ s'.Holds l₁ l₂ ∧
      s'.nodes.node a = n ∧ s'.root = s.root ∧ s'.current = s.current ∧ s'.added = s.added := by
  obtain ⟨hnode, hnot, hcurrent, -⟩ := ha
  obtain ⟨nodes, hset, hnodes, hfresh⟩ := set_of (h := s.nodes) (by rw [hnode]; rfl) n
  have hother {b : ℕ} (hb : b ≠ a) : nodes.node b = s.nodes.node b := by
    rw [hnodes, Function.update_of_ne hb]
  refine ⟨{ s with nodes := nodes }, by rw [PacList.set, hset]; rfl,
    h.frame ?_ ?_ hfresh.ge, by rw [hnodes, Function.update_self], rfl, rfl, rfl⟩
  · intro b hb
    refine hother ?_
    rintro rfl
    exact hnot hb
  · intro b hb
    rw [hother]
    · exact h.current b hb
    · rintro rfl
      exact hcurrent hb

theorem PacList.Holds.parseFail (h : s.Holds l₁ l₂) {pac : Option ℕ}
    (hpac : ∀ a, pac = some a → ∃ e, s.Held (l₁ ++ l₂) a e) :
    ∃ closed s', freeOpen s pac = .ok (closed, s') ∧ s'.Holds l₁ l₂ := by
  cases pac with
  | none => exact ⟨true, s, rfl, h⟩
  | some a =>
    obtain ⟨e, ha⟩ := hpac a rfl
    obtain ⟨s', hset, hs', -⟩ := h.set ha none
    exact ⟨false, s', by rw [freeOpen, PacList.free, hset]; rfl, hs'⟩

theorem PacList.Holds.link (h : s.Holds l₁ l₂) (ha : s.Held (l₁ ++ l₂) a e) :
    ∃ s', s.link (lastAddr (l₁ ++ l₂)) (some a) = .ok s' ∧ s'.Holds l₁ (l₂ ++ [(a, e)]) := by
  obtain ⟨hnode, hnot, -, hadded⟩ := ha
  have hentry : s.nodes.Linked [(a, e)] := ⟨hnode, trivial⟩
  obtain ⟨nodes, hrelink, hlinked, -, hlive, hfresh⟩ :=
    relink_linked (m := []) (by simpa using h.linked) hentry fun b hb hmem => by
      obtain rfl : b = a := by simpa using hmem
      exact hnot hb
  rw [List.append_nil, addr_cons, ← h.root] at hrelink
  refine ⟨{ s with nodes := nodes, root := addr (l₁ ++ l₂ ++ [(a, e)]) }, ?_, ?_, ?_, ?_, ?_,
    h.front, ?_, h.distinct⟩
  · rw [PacList.link, hrelink]
    rfl
  · rw [List.append_assoc]
  · rwa [List.append_assoc] at hlinked
  · intro b hb
    exact (hlive b).trans (h.current b hb)
  · intro b hb
    exact (h.added b hb).trans_eq hfresh.symm
  · intro p hp
    rcases List.mem_append.mp hp with hp | hp
    · exact h.back p hp
    · obtain rfl := List.mem_singleton.mp hp
      exact hadded

end Lists

/-! ## Searching -/

section Search

variable {s : PacList} {l₁ l₂ : List (ℕ × PacEntry)} {aId : Bytes} {pacType : ℕ}

/-- The search does not come to an entry that has lost its A-ID and kept its length. -/
def Comparable (aId : Bytes) (pacType : ℕ) (es : List PacEntry) : Prop :=
  ∀ e ∈ es.takeWhile (fun e => pacMatches aId pacType e ≠ .ok true),
    e.pacType = pacType → e.aId = none → e.lostLen ≠ aId.length

theorem pacMatches_of_same {e : PacEntry} (htype : e.pacType = pacType) (haId : e.aId = some aId) :
    pacMatches aId pacType e = .ok true := by
  simp [pacMatches, htype, haId]

theorem same_of_pacMatches {e : PacEntry} (h : pacMatches aId pacType e = .ok true)
    (hsome : e.aId.isSome) : e.pacType = pacType ∧ e.aId = some aId := by
  obtain ⟨b, hb⟩ := Option.isSome_iff_exists.mp hsome
  unfold pacMatches at h
  by_cases htype : e.pacType = pacType
  · rw [if_pos htype, hb] at h
    exact ⟨htype, by simpa [hb] using h⟩
  · rw [if_neg htype] at h
    cases h

theorem Comparable.passed {es : List PacEntry} (h : Comparable aId pacType es) (i : ℕ) :
    ∃ k, passed (fun _ => pacMatches aId pacType) i es = .ok k := by
  induction es generalizing i with
  | nil => exact ⟨0, rfl⟩
  | cons e es ih =>
    rw [Nodes.passed]
    by_cases hmatch : pacMatches aId pacType e = .ok true
    · rw [hmatch]
      exact ⟨0, rfl⟩
    · rw [Comparable, List.takeWhile_cons_of_pos (by simpa using hmatch)] at h
      have hfalse : pacMatches aId pacType e = .ok false := by
        have hlost := h e List.mem_cons_self
        unfold pacMatches at hmatch ⊢
        by_cases htype : e.pacType = pacType
        · rw [if_pos htype] at hmatch ⊢
          cases haId : e.aId with
          | some a =>
            rw [haId] at hmatch
            simpa using hmatch
          | none => exact if_pos (hlost htype haId)
        · exact if_neg htype
      obtain ⟨k, hk⟩ := ih (fun e he => h e (List.mem_cons_of_mem _ he)) (i + 1)
      rw [hfalse]
      simp only [bind, Except.bind, hk]
      exact ⟨k + 1, rfl⟩

theorem PacList.Holds.search (h : s.Holds l₁ l₂)
    (hc : Comparable aId pacType ((l₁ ++ l₂).map Prod.snd)) :
    ∃ f b, l₁ ++ l₂ = f ++ b ∧
      s.walk (fun _ => pacMatches aId pacType) = .ok (lastAddr f, addr b) ∧
      (∀ p ∈ f, pacMatches aId pacType p.2 = .ok false) ∧
      ∀ p c, b = p :: c → pacMatches aId pacType p.2 = .ok true := by
  obtain ⟨k, hk⟩ := hc.passed 0
  obtain ⟨-, hbefore, hat⟩ := passed_spec hk
  refine ⟨(l₁ ++ l₂).take k, (l₁ ++ l₂).drop k, (List.take_append_drop _ _).symm, ?_, ?_, ?_⟩
  · rw [PacList.walk, h.root, walk_linked h.linked h.linked.length_le, hk]
    simp [Except.map]
  · intro p hp
    obtain ⟨j, hj, hget⟩ := List.mem_take_iff_getElem.mp hp
    refine hbefore j p.2 (by omega) ?_
    rw [List.getElem?_map, List.getElem?_eq_getElem (by omega), hget]
    rfl
  · intro p c hb
    refine hat p.2 ?_
    have hhead : ((l₁ ++ l₂).drop k).head? = some p := by rw [hb]; rfl
    rw [List.getElem?_map, ← List.head?_drop, hhead]
    rfl

theorem eapFastGetPac_spec (h : s.Holds l₁ l₂)
    (hc : Comparable aId pacType ((l₁ ++ l₂).map Prod.snd)) :
    ∃ pac, eapFastGetPac aId pacType s = .ok pac ∧
      ∀ a, pac = some a → (s.nodes.node a).isSome := by
  obtain ⟨f, b, heq, hwalk, -⟩ := h.search hc
  refine ⟨addr b, by rw [eapFastGetPac, hwalk]; rfl, ?_⟩
  rintro a ha
  refine h.linked.live ?_
  rw [heq]
  cases b with
  | nil => cases ha
  | cons p b =>
    obtain rfl : p.1 = a := by simpa using ha
    simp

theorem eapFastRemovePac_spec (h : s.Holds l₁ l₂)
    (hc : Comparable aId pacType ((l₁ ++ l₂).map Prod.snd)) :
    ∃ s' m₁ m₂, eapFastRemovePac aId pacType s = .ok s' ∧ s'.Holds m₁ m₂ ∧
      ∀ p ∈ m₁, ¬ (p.2.pacType = pacType ∧ p.2.aId = some aId) := by
  obtain ⟨f, b, heq, hwalk, hfalse, htrue⟩ := h.search hc
  have hkeeps (p : ℕ × PacEntry) (hp : p ∈ f) :
      ¬ (p.2.pacType = pacType ∧ p.2.aId = some aId) := by
    rintro ⟨htype, haId⟩
    have hmatch := (pacMatches_of_same htype haId).symm.trans (hfalse p hp)
    cases hmatch
  rw [eapFastRemovePac, hwalk]
  cases b with
  | nil =>
    rw [List.append_nil] at heq
    exact ⟨s, l₁, l₂, rfl, h, fun p hp => hkeeps p (heq ▸ List.mem_append_left _ hp)⟩
  | cons p c =>
    obtain ⟨a, e⟩ := p
    have hlinked := heq ▸ h.linked
    have hroot := heq ▸ h.root
    have hnode := hlinked.of_append.1
    have hnodup := hlinked.nodup
    have hnotin : a ∉ addrs f ∧ a ∉ addrs c ∧ ∀ b ∈ addrs f, b ∉ addrs c := by
      simp only [addrs, List.map_append, List.map_cons] at hnodup
      obtain ⟨-, hrest, hdisjoint⟩ := List.nodup_append.mp hnodup
      refine ⟨fun ha => hdisjoint a ha a List.mem_cons_self rfl, (List.nodup_cons.mp hrest).1, ?_⟩
      exact fun b hb hbc => hdisjoint b hb b (List.mem_cons_of_mem _ hbc) rfl
    obtain ⟨nodes, hrelink, hlinked', hsame, hlive, hfresh⟩ :=
      relink_linked hlinked hlinked.of_append.2 hnotin.2.2
    obtain ⟨nodes', hset, hnodes, hfresh'⟩ :=
      set_of (h := nodes) (by rw [hsame a hnotin.1, hnode]; rfl) (none : Option (Node PacEntry))
    obtain ⟨current, hcurrent⟩ :
        ∃ current, current = if s.current = some a then none else s.current := ⟨_, rfl⟩
    have hrun : eapFastRemovePac aId pacType s =
        .ok { s with nodes := nodes', root := addr (f ++ c), current := current } := by
      rw [← hroot] at hrelink
      rw [eapFastRemovePac, hwalk]
      simp only [addr_cons, bind, Except.bind, read_of hnode, PacList.link, hrelink, pure,
        Except.pure, PacList.free, PacList.set, hset, hcurrent]
    have hfree : nodes'.Linked (f ++ c) := hlinked'.congr fun b hb => by
      rw [hnodes, Function.update_of_ne]
      rintro rfl
      simp only [addrs, List.map_append, List.mem_append] at hb
      exact hb.elim hnotin.1 hnotin.2.1
    have hkeep {m₁ m₂ : List (ℕ × PacEntry)} (hm : f ++ c = m₁ ++ m₂)
        (hm₁ : m₁.Sublist l₁) (hm₂ : m₂.Sublist l₂) : PacList.Holds
          { s with nodes := nodes', root := addr (f ++ c), current := current } m₁ m₂ :=
      { root := by rw [hm]
        linked := hm ▸ hfree
        current := by
          intro b hb
          change current = some b at hb
          rw [hcurrent] at hb
          split_ifs at hb with hcur
          have hne : b ≠ a := by
            rintro rfl
            exact hcur hb
          change (nodes'.node b).isSome
          rw [hnodes, Function.update_of_ne hne, hlive]
          exact h.current b hb
        added := fun b hb => (h.added b hb).trans_eq (hfresh'.trans hfresh).symm
        front := fun p hp => h.front p (hm₁.subset hp)
        back := fun p hp => h.back p (hm₂.subset hp)
        distinct := h.distinct.sublist hm₁ }
    rw [← hwalk, ← eapFastRemovePac, hrun]
    rcases append_eq_append_cons heq with ⟨m, rfl, rfl⟩ | ⟨m, rfl, rfl⟩
    · refine ⟨_, l₁, m ++ c, rfl, hkeep (List.append_assoc _ _ _) (List.Sublist.refl _)
        (List.Sublist.append_left (List.sublist_cons_self _ _) _), ?_⟩
      exact fun p hp => hkeeps p (List.mem_append_left _ hp)
    · -- the entry was added: the others that were added differ from it
      refine ⟨_, f ++ m, l₂, rfl, hkeep (List.append_assoc _ _ _).symm
        (List.Sublist.append_left (List.sublist_cons_self _ _) _) (List.Sublist.refl _), ?_⟩
      intro p hp hsame'
      rcases List.mem_append.mp hp with hp | hp
      · exact hkeeps p hp hsame'
      · obtain ⟨htype, haId⟩ := same_of_pacMatches (htrue _ _ rfl) (h.front (a, e) (by simp)).2
        have hpair := (List.pairwise_append.mp h.distinct).2.1
        exact (List.pairwise_cons.mp hpair).1 p hp
          ⟨htype.trans hsame'.1.symm, haId.trans hsame'.2.symm⟩

end Search

/-! ## Adding and truncating -/

section Steps

variable {s : PacList} {l₁ l₂ : List (ℕ × PacEntry)}

/-- An entry has been added: it is at the head, and the only one of those that were added. -/
def PacList.HeadIs (s : PacList) (entry : EapFastPac) : Prop :=
  ∃ a l, s.IsList ((a, ⟨entry, 0⟩) :: l) ∧ a ∈ s.added ∧
    ∀ p ∈ l, p.1 ∈ s.added → ¬ SamePac ⟨entry, 0⟩ p.2

theorem copyPac_eq {mem : ℕ → Bool} {entry : EapFastPac} {e : PacEntry}
    (h : copyPac mem entry = some e) : e = ⟨entry, 0⟩ := by
  have hcopy {mem : Bool} {src dst : Option Bytes} (h : eapFastCopyBuf mem src = some dst) :
      dst = src := by
    cases src <;> cases mem <;> simp_all [eapFastCopyBuf]
  simp only [copyPac, Option.bind_eq_bind, Option.bind_eq_some_iff, Option.pure_def,
    Option.some.injEq] at h
  obtain ⟨_, h₁, _, h₂, _, h₃, _, h₄, _, h₅, rfl⟩ := h
  rw [hcopy h₁, hcopy h₂, hcopy h₃, hcopy h₄, hcopy h₅]

theorem eapFastAddPac_spec (h : s.Holds l₁ l₂) (mem : ℕ → Bool) (entry : EapFastPac)
    (hc : ∀ aId, entry.aId = some aId →
      Comparable aId entry.pacType ((l₁ ++ l₂).map Prod.snd)) :
    ∃ ok s' m₁ m₂, eapFastAddPac mem entry s = .ok (ok, s') ∧ s'.Holds m₁ m₂ ∧
      (ok = true → s'.HeadIs entry) := by
  unfold eapFastAddPac
  cases haId : entry.aId with
  | none => exact ⟨false, s, l₁, l₂, rfl, h, nofun⟩
  | some aId =>
    obtain ⟨s₁, m₁, m₂, hremove, h₁, hother⟩ := eapFastRemovePac_spec h (hc aId haId)
    simp only [hremove, bind, Except.bind]
    split_ifs with hmem
    · obtain ⟨h₂, hheld⟩ := h₁.alloc zeroedPac
      cases hcopy : copyPac mem entry with
      | none =>
        obtain ⟨s', hset, hs', -⟩ := h₂.set hheld none
        refine ⟨false, s', m₁, m₂, ?_, hs', nofun⟩
        simp only [PacList.free, hset]
        rfl
      | some e =>
        obtain rfl := copyPac_eq hcopy
        obtain ⟨s', hset, hs', hnode, hroot, hcurrent, hadded⟩ :=
          h₂.set hheld (some ⟨⟨entry, 0⟩, s₁.root⟩)
        have hnew : s₁.nodes.fresh ∉ s₁.added := hheld.2.2.2
        have hlinked : s'.nodes.Linked ((s₁.nodes.fresh, ⟨entry, 0⟩) :: m₁ ++ m₂) :=
          ⟨by rw [hnode, h₁.root]; rfl, hs'.linked⟩
        have hfresh : s₁.nodes.fresh < s'.nodes.fresh := by
          by_contra hnot
          rw [s'.nodes.unused _ (not_lt.mp hnot)] at hnode
          cases hnode
        have hsame : s'.added = s₁.added := hadded
        have hdistinct : ∀ p ∈ m₁, ¬ SamePac ⟨entry, 0⟩ p.2 := fun p hp hp' =>
          hother p hp ⟨hp'.1.symm, hp'.2.symm.trans haId⟩
        have hback : ∀ p ∈ m₂, p.1 ∉ s₁.nodes.fresh :: s'.added := by
          intro p hp hmem
          rcases List.mem_cons.mp hmem with heq | hmem
          · refine hheld.2.1 ?_
            rw [← heq]
            exact List.mem_map_of_mem (List.mem_append_right _ hp)
          · exact hs'.back p hp hmem
        refine ⟨true, { s' with root := some s₁.nodes.fresh, added := s₁.nodes.fresh :: s'.added },
          (s₁.nodes.fresh, ⟨entry, 0⟩) :: m₁, m₂, ?_, ?_, fun _ => ?_⟩
        · simp only [PacList.alloc] at hset ⊢
          rw [hset]
          rfl
        · refine ⟨rfl, hlinked, hs'.current, ?_, ?_, hback, ?_⟩
          · intro a ha
            rcases List.mem_cons.mp ha with rfl | ha
            · exact hfresh
            · exact hs'.added a ha
          · intro p hp
            rcases List.mem_cons.mp hp with rfl | hp
            · exact ⟨List.mem_cons_self, by simp [haId]⟩
            · exact ⟨List.mem_cons_of_mem _ (hs'.front p hp).1, (hs'.front p hp).2⟩
          · exact List.pairwise_cons.mpr ⟨hdistinct, hs'.distinct⟩
        · refine ⟨_, m₁ ++ m₂, ⟨rfl, hlinked⟩, List.mem_cons_self, ?_⟩
          intro p hp hmem
          rcases List.mem_append.mp hp with hp | hp
          · exact hdistinct p hp
          · exact absurd hmem (hback p hp)
    · exact ⟨false, s₁, m₁, m₂, rfl, h₁, nofun⟩

theorem passed_upTo {α : Type} (n i : ℕ) (vs : List α) :
    passed (fun i _ => .ok (n ≤ i)) i vs = .ok (min (n - i) vs.length) := by
  induction vs generalizing i with
  | nil => simp [passed]
  | cons v vs ih =>
    rw [passed]
    by_cases hi : n ≤ i
    · simp [bind, Except.bind, pure, Except.pure, hi, Nat.sub_eq_zero_of_le hi]
    · have hmin : min (n - (i + 1)) vs.length + 1 = min (n - i) (vs.length + 1) := by omega
      simp [bind, Except.bind, pure, Except.pure, hi, ih, hmin]

theorem eapFastPacListTruncate_spec (h : s.Holds l₁ l₂) (maxLen : ℕ)
    (hc : ∀ a, s.current = some a → maxLen ≠ 0 → a ∉ addrs ((l₁ ++ l₂).drop maxLen)) :
    ∃ s' m₁ m₂, eapFastPacListTruncate maxLen s = .ok s' ∧ s'.Holds m₁ m₂ := by
  obtain ⟨l, hl⟩ : ∃ l, l₁ ++ l₂ = l := ⟨_, rfl⟩
  have hwalk : s.walk (fun i _ => .ok (maxLen ≤ i)) =
      .ok (lastAddr (l.take maxLen), addr (l.drop maxLen)) := by
    rw [PacList.walk, h.root, walk_linked h.linked h.linked.length_le, passed_upTo, hl,
      Nat.sub_zero, List.length_map]
    simp only [Except.map, Option.or_none]
    rcases Nat.le_total maxLen l.length with hle | hle
    · rw [Nat.min_eq_left hle]
    · rw [Nat.min_eq_right hle, List.take_length, List.drop_length, List.take_of_length_le hle,
        List.drop_of_length_le hle]
  rw [eapFastPacListTruncate, hwalk]
  simp only [bind, Except.bind]
  split_ifs with hend
  · exact ⟨s, l₁, l₂, rfl, h⟩
  · have hzero : maxLen ≠ 0 := by
      rintro rfl
      exact hend (.inr rfl)
    have hlinked : s.nodes.Linked (l.take maxLen ++ l.drop maxLen) := by
      rw [List.take_append_drop, ← hl]
      exact h.linked
    have hdisjoint : ∀ a ∈ addrs (l.take maxLen), a ∉ addrs (l.drop maxLen) := by
      have hnodup := hlinked.nodup
      rw [addrs, List.map_append] at hnodup
      exact fun a ha ha' => (List.nodup_append.mp hnodup).2.2 a ha a ha' rfl
    obtain ⟨nodes, hrelink, hfront, hsame, hlive, hfresh⟩ :=
      @relink_linked _ _ (l.take maxLen) [] (l.drop maxLen) hlinked trivial
        (fun _ _ => List.not_mem_nil)
    rw [List.append_nil] at hfront
    rw [List.take_append_drop, ← hl, ← h.root, hl, List.append_nil, addr_nil] at hrelink
    have hrest : nodes.Linked (l.drop maxLen) := hlinked.of_append.congr fun a ha =>
      hsame a fun ha' => hdisjoint a ha' ha
    obtain ⟨nodes', hfree, hsame', hfresh'⟩ := freeAll_linked hrest hrest.length_le
    have htake : l.take maxLen = l₁.take maxLen ++ l₂.take (maxLen - l₁.length) := by
      rw [← hl, List.take_append]
    refine ⟨{ s with nodes := nodes', root := addr (l.take maxLen) }, l₁.take maxLen,
      l₂.take (maxLen - l₁.length), ?_, ?_, ?_, ?_, ?_, ?_, ?_, ?_⟩
    · simp only [PacList.link, hrelink, bind, Except.bind, pure, Except.pure, hfree]
    · rw [htake]
    · rw [← htake]
      exact hfront.congr fun a ha => hsame' a (hdisjoint a ha)
    · intro a ha
      change (nodes'.node a).isSome
      rw [hsame' a (hl ▸ hc a ha hzero), hlive]
      exact h.current a ha
    · exact fun a ha => (h.added a ha).trans_eq (hfresh'.trans hfresh).symm
    · exact fun p hp => h.front p (List.mem_of_mem_take hp)
    · exact fun p hp => h.back p (List.mem_of_mem_take hp)
    · exact h.distinct.sublist (List.take_sublist _ _)

end Steps

/-! ## Loading -/

section Loading

variable {s : PacList} {l₁ l₂ : List (ℕ × PacEntry)}

/-- A line without a value gives the type of the entry, and is come to. -/
def readsNull (mem : ℕ → Bool) : Bool → List (Bytes × Option Bytes) → Bool
  | _, [] => false
  | inBlock, line :: ls =>
    match lineEffect (mem ls.length) inBlock line with
    | .null => true
    | .failed => false
    | .start => readsNull mem true ls
    | .finish => readsNull mem false ls
    | .skip | .set _ => readsNull mem inBlock ls

theorem lineEffect_inBlock {mem inBlock : Bool} {line : Bytes × Option Bytes}
    (h : (∃ f, lineEffect mem inBlock line = .set f) ∨ lineEffect mem inBlock line = .finish) :
    inBlock = true := by
  cases inBlock with
  | true => rfl
  | false =>
    unfold lineEffect at h
    split_ifs at h <;> simp_all

theorem PacList.Holds.walk (h : s.Holds l₁ l₂) :
    s.walk (fun _ _ => .ok false) = .ok (lastAddr (l₁ ++ l₂), none) := by
  have hpassed (i : ℕ) (es : List PacEntry) :
      passed (fun _ _ => .ok false) i es = .ok es.length := by
    induction es generalizing i with
    | nil => rfl
    | cons e es ih => simp [passed, ih, bind, Except.bind, pure, Except.pure]
  rw [PacList.walk, h.root, walk_linked h.linked h.linked.length_le, hpassed, List.length_map]
  simp only [Except.map, List.take_length, List.drop_length, Option.or_none, addr_nil]

theorem loadLinesAt_spec {mem : ℕ → Bool} {ls : List (Bytes × Option Bytes)} {pac : Option ℕ}
    (h : s.Holds l₁ l₂) (hpac : ∀ a, pac = some a → ∃ e, s.Held (l₁ ++ l₂) a e)
    (hnull : readsNull mem pac.isSome ls = false) :
    ∃ ok s' pac' m₂, loadLinesAt mem ls s pac = .ok (ok, s', pac') ∧ s'.Holds l₁ m₂ ∧
      ∀ a, pac' = some a → ∃ e, s'.Held (l₁ ++ m₂) a e := by
  induction ls generalizing s l₂ pac with
  | nil => exact ⟨true, s, pac, l₂, rfl, h, hpac⟩
  | cons line ls ih =>
    rw [readsNull] at hnull
    rw [loadLinesAt]
    cases heffect : lineEffect (mem ls.length) pac.isSome line with
    | start =>
      rw [heffect] at hnull
      obtain ⟨h', hheld⟩ := h.alloc { zeroedPac with pacType := pacTypeTunnelPac }
      exact ih h' (fun a ha => Option.some.inj ha ▸ ⟨_, hheld⟩) hnull
    | finish =>
      rw [heffect] at hnull
      obtain ⟨a, rfl⟩ := Option.isSome_iff_exists.mp (lineEffect_inBlock (.inr heffect))
      obtain ⟨e, hheld⟩ := hpac a rfl
      obtain ⟨s', hlink, hs'⟩ := h.link hheld
      simp only [h.walk, bind, Except.bind, hlink]
      exact ih hs' (by simp) hnull
    | skip =>
      rw [heffect] at hnull
      exact ih h hpac hnull
    | failed => exact ⟨false, s, pac, l₂, rfl, h, hpac⟩
    | null =>
      rw [heffect] at hnull
      cases hnull
    | set f =>
      rw [heffect] at hnull
      obtain ⟨a, rfl⟩ := Option.isSome_iff_exists.mp (lineEffect_inBlock (.inl ⟨f, heffect⟩))
      obtain ⟨e, hheld⟩ := hpac a rfl
      obtain ⟨e', he'⟩ : ∃ e', e' = { e with toEapFastPac := e.set f } := ⟨_, rfl⟩
      obtain ⟨s', hset, hs', hnode, -, hcurrent, hadded⟩ := h.set hheld (some ⟨e', none⟩)
      simp only [read_of hheld.1, bind, Except.bind, ← he', hset]
      refine ih hs' ?_ hnull
      rintro b hb
      obtain rfl := Option.some.inj hb
      exact ⟨e', hnode, hheld.2.1, hcurrent ▸ hheld.2.2.1, hadded ▸ hheld.2.2.2⟩

def PacFile.ReadsNull (file : PacFile) (mem : ℕ → Bool) : Prop :=
  ∃ header ls, file.lines = header :: ls ∧ header.1 = pacFileHdr ∧ readsNull mem false ls = true

theorem eapFastLoadText_spec (h : s.Holds l₁ l₂) (mem : ℕ → Bool) (file : Option PacFile)
    (hnull : ∀ f, file = some f → ¬ f.ReadsNull mem) :
    ∃ ok s' m₂, eapFastLoadText mem file s = .ok (ok, s') ∧ s'.Holds l₁ m₂ := by
  cases file with
  | none => exact ⟨true, s, l₂, rfl, h⟩
  | some file =>
    rw [eapFastLoadText]
    cases hlines : file.lines with
    | nil => exact ⟨false, s, l₂, rfl, h⟩
    | cons header ls =>
      dsimp only
      split_ifs with hheader
      · exact ⟨false, s, l₂, rfl, h⟩
      · have hread : readsNull mem (none : Option ℕ).isSome ls = false := by
          rw [Bool.eq_false_iff]
          exact fun hread => hnull file rfl ⟨header, ls, hlines, not_not.mp hheader, hread⟩
        obtain ⟨ok, s₁, pac, m₂, hload, h₁, hpac⟩ := loadLinesAt_spec h (by simp) hread
        obtain ⟨closed, s', hfree, hs'⟩ := h₁.parseFail hpac
        refine ⟨ok && closed, s', m₂, ?_, hs'⟩
        simp only [hload, bind, Except.bind, hfree]
        rfl

theorem pacGetAId_returns (mem : ℕ → Bool) (n : ℕ) (pos : Bytes) (e : PacEntry) :
    ∃ e', pacGetAId mem n pos e = .ok e' := by
  induction n generalizing pos e with
  | zero => exact ⟨e, rfl⟩
  | succ n ih =>
    rw [pacGetAId]
    by_cases hend : pos.length ≤ 4
    · exact ⟨e, if_pos hend⟩
    rw [if_neg hend, rdBe16_of (by omega), ok_bind, rdBe16_of (by omega), ok_bind]
    generalize be16 (pos.drop 2) = len
    by_cases hlen : pos.length < 4 + len
    · exact ⟨e, if_pos hlen⟩
    rw [if_neg hlen, rdSlice_of (by omega) (by omega), ok_bind]
    split_ifs <;> first | exact ih _ _ | exact ⟨_, rfl⟩

theorem loadRecord_returns (mem : ℕ → Bool) {pos : Bytes} (h : 38 ≤ pos.length) :
    ∃ r, loadRecord mem pos = .ok r ∧
      ∀ e rest, r = some (e, rest) → rest.length < pos.length := by
  rw [loadRecord, rdBe16_of (by omega), ok_bind, rdSlice_of (by omega) (by omega), ok_bind,
    rdBe16_of (by omega), ok_bind]
  generalize be16 (pos.drop 34) = opaqueLen
  split_ifs with hopaque
  · exact ⟨none, rfl, nofun⟩
  · rw [rdSlice_of (by omega) (by omega), ok_bind, rdBe16_of (by omega), ok_bind]
    dsimp only
    generalize be16 (pos.drop (36 + opaqueLen)) = infoLen
    split_ifs with hinfo
    · exact ⟨none, rfl, nofun⟩
    · rw [rdSlice_of (by omega) (by omega), ok_bind]
      obtain ⟨e, he⟩ := pacGetAId_returns (fun n => mem (3 + n)) infoLen
        ((pos.take (36 + opaqueLen + 2 + infoLen)).drop (36 + opaqueLen + 2))
        ⟨⟨(pos.take 34).drop 2, some ((pos.take (36 + opaqueLen)).drop 36),
          some ((pos.take (36 + opaqueLen + 2 + infoLen)).drop (36 + opaqueLen + 2)),
          none, none, none, be16 (pos.drop 0)⟩, 0⟩
      rw [he]
      refine ⟨_, rfl, ?_⟩
      rintro e' rest heq
      obtain ⟨-, rfl⟩ : e = e' ∧ _ = rest := by simpa using heq
      rw [List.length_drop]
      omega

/-- A record is loaded, and `rest` stands behind it. -/
def IsRecord (mem : ℕ → ℕ → Bool) (pos rest : Bytes) : Prop :=
  38 ≤ pos.length ∧ mem pos.length 0 = true ∧
    ∃ e, loadRecord (mem pos.length) pos = .ok (some (e, rest))

def IsShort (rest : Bytes) : Prop := 0 < rest.length ∧ rest.length < 38

theorem loadRecords_spec {mem : ℕ → ℕ → Bool} {n : ℕ} {pos : Bytes} (h : s.Holds [] l₂)
    (hn : pos.length < n) (hshort : l₂ ≠ [] → ¬ IsShort pos)
    (hrest : ∀ rest, Relation.TransGen (IsRecord mem) pos rest → ¬ IsShort rest) :
    ∃ ok s' m₂, loadRecords mem n pos s (lastAddr l₂) = .ok (ok, s') ∧ s'.Holds [] m₂ := by
  induction n generalizing s l₂ pos with
  | zero => omega
  | succ n ih =>
    have hfail {s : PacList} {pac : Option ℕ} (h : s.Holds [] l₂)
        (hpac : ∀ a, pac = some a → ∃ e, s.Held ([] ++ l₂) a e) :
        ∃ ok s' m₂, parseFail s pac = .ok (ok, s') ∧ s'.Holds [] m₂ := by
      obtain ⟨closed, s', hfree, hs'⟩ := h.parseFail hpac
      exact ⟨false, s', l₂, by rw [parseFail, hfree]; rfl, hs'⟩
    rw [loadRecords]
    by_cases hend : pos = []
    · rw [if_pos hend]
      exact ⟨true, s, l₂, rfl, h⟩
    rw [if_neg hend]
    by_cases hlen : pos.length < 2 + 32 + 2 + 2
    · rw [if_pos hlen]
      -- nothing is linked yet
      obtain rfl : l₂ = [] := by
        by_contra hne
        exact hshort hne ⟨List.length_pos_iff.mpr hend, hlen⟩
      exact hfail h nofun
    rw [if_neg hlen]
    by_cases hmem : mem pos.length 0 = false
    · rw [if_pos hmem]
      exact hfail h nofun
    rw [if_neg hmem]
    obtain ⟨r, hr, hless⟩ := loadRecord_returns (mem pos.length) (not_lt.mp hlen)
    obtain ⟨h₁, hheld⟩ := h.alloc zeroedPac
    rw [hr]
    match r, hr with
    | none, _ => exact hfail h₁ fun a ha => Option.some.inj ha ▸ ⟨_, hheld⟩
    | some (e, rest), hr =>
      obtain ⟨s₂, hset, h₂, hnode, -, hcurrent, hadded⟩ := h₁.set hheld (some ⟨e, none⟩)
      have hheld₂ : s₂.Held ([] ++ l₂) s.nodes.fresh e :=
        ⟨hnode, hheld.2.1, hcurrent ▸ hheld.2.2.1, hadded ▸ hheld.2.2.2⟩
      obtain ⟨s₃, hlink, h₃⟩ := h₂.link hheld₂
      have hrecord : IsRecord mem pos rest :=
        ⟨not_lt.mp hlen, by simpa using hmem, e, hr⟩
      have hlast : lastAddr (l₂ ++ [(s.nodes.fresh, e)]) = some s.nodes.fresh := by
        simp [lastAddr]
      rw [List.nil_append] at hlink
      have hless := hless e rest rfl
      have hloop := ih h₃ (by omega) (fun _ => hrest rest (.single hrecord))
        (fun rest' hrest' => hrest rest' (.head hrecord hrest'))
      rw [hlast] at hloop
      simp only [hset, bind, Except.bind, hlink]
      exact hloop

/-- Behind records that are linked, the file has octets that are too few for another one. -/
def EndsShort (mem : ℕ → ℕ → Bool) (data : Bytes) : Prop :=
  6 ≤ data.length ∧ beNat (data.take 4) = eapFastPacBinaryMagic ∧
    be16 (data.drop 4) = eapFastPacBinaryFormatVersion ∧
    ∃ rest, Relation.TransGen (IsRecord mem) (data.drop 6) rest ∧ IsShort rest

theorem eapFastLoadBin_spec (h : s.Holds l₁ l₂) (mem : ℕ → ℕ → Bool) (data : Option Bytes)
    (hshort : ∀ d, data = some d → ¬ EndsShort mem d) :
    ∃ ok s' m₂, eapFastLoadBin mem data s = .ok (ok, s') ∧ s'.Holds [] m₂ := by
  have h₀ : PacList.Holds { s with root := none } [] [] :=
    ⟨rfl, trivial, h.current, h.added, nofun, nofun, .nil⟩
  cases data with
  | none => exact ⟨true, _, [], rfl, h₀⟩
  | some data =>
    rw [eapFastLoadBin]
    split_ifs with hempty hheader
    · exact ⟨true, _, [], rfl, h₀⟩
    · exact ⟨false, _, [], rfl, h₀⟩
    · simp only [not_or, not_lt, not_not] at hheader
      obtain ⟨hlen, hmagic, hversion⟩ := hheader
      refine loadRecords_spec h₀ (by rw [List.length_drop]; omega) (fun hne => absurd rfl hne) ?_
      exact fun rest hrest hrest' =>
        hshort data rfl ⟨hlen, hmagic, hversion, rest, hrest, hrest'⟩

end Loading

/-! ## Runs -/

/-- When a step keeps the list as it has to be: a text gives a type wherever it names one, a file of
records does not end with octets that are too few for another record behind the first one, no A-ID
is compared with one that was lost, and the entry in use is not cut off. -/
def Fine (s : PacList) : PacOp → Prop
  | .loadText mem file => ∀ f, file = some f → ¬ f.ReadsNull mem
  | .loadBin mem data => ∀ d, data = some d → ¬ EndsShort mem d
  | .add _ entry => ∀ l aId, s.IsList l → entry.aId = some aId →
      Comparable aId entry.pacType (l.map Prod.snd)
  | .truncate maxLen => ∀ l a, s.IsList l → s.current = some a → maxLen ≠ 0 →
      a ∉ addrs (l.drop maxLen)
  | .select aId pacType => ∀ l, s.IsList l → Comparable aId pacType (l.map Prod.snd)

theorem pacStep_holds {s : PacList} {l₁ l₂ : List (ℕ × PacEntry)} {op : PacOp}
    (h : s.Holds l₁ l₂) (hfine : Fine s op) :
    ∃ s' m₁ m₂, pacStep s op = .ok s' ∧ s'.Holds m₁ m₂ := by
  have hlist : s.IsList (l₁ ++ l₂) := ⟨h.root, h.linked⟩
  cases op with
  | loadText mem file =>
    obtain ⟨ok, s', m₂, hload, hs'⟩ := eapFastLoadText_spec h mem file hfine
    exact ⟨s', l₁, m₂, by rw [pacStep, hload]; rfl, hs'⟩
  | loadBin mem data =>
    obtain ⟨ok, s', m₂, hload, hs'⟩ := eapFastLoadBin_spec h mem data hfine
    exact ⟨s', [], m₂, by rw [pacStep, hload]; rfl, hs'⟩
  | add mem entry =>
    obtain ⟨ok, s', m₁, m₂, hadd, hs', -⟩ :=
      eapFastAddPac_spec h mem entry fun aId => hfine _ aId hlist
    exact ⟨s', m₁, m₂, by rw [pacStep, hadd]; rfl, hs'⟩
  | truncate maxLen =>
    exact eapFastPacListTruncate_spec h maxLen fun a => hfine _ a hlist
  | select aId pacType =>
    obtain ⟨pac, hget, hpac⟩ := eapFastGetPac_spec h (hfine _ hlist)
    refine ⟨{ s with current := pac }, l₁, l₂, by rw [pacStep, hget]; rfl, ?_⟩
    exact ⟨h.root, h.linked, hpac, h.added, h.front, h.back, h.distinct⟩

def shortPac : EapFastPac :=
  ⟨List.replicate eapFastPacKeyLen 0, none, none, some [1], none, none, pacTypeTunnelPac⟩

def shortFile : Bytes :=
  [0x6a, 0xe4, 0x92, 0x0c, 0, 0] ++ List.replicate 38 0 ++ [0]

end Hostapd.EapPeer
