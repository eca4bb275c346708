import Hostapd.P2p.Steady

/-!
# The table of peers

* **`Table`**: the addresses in the table are distinct, it holds no more than `max_peers` entries,
  and the four pointers of the module lead to entries of it.
* **`Turns p q`**: what a function does that may create and remove entries.
* **`createDevice_evicts`**: a new entry in a full table takes the place of one that was seen least
  recently.
-/

namespace Hostapd.P2p

open Hostapd.Utils.Eloop (OsTime)

/-! ## The table -/

/-- The table of peers is in order, with the pointers into it. -/
structure Table (p2p : P2pData) : Prop where
  pos : 0 < p2p.cfg.maxPeers
  nodup : p2p.devices.Nodup
  distinct : ∀ d ∈ p2p.devices, ∀ e ∈ p2p.devices, p2p.addr d = p2p.addr e → d = e
  le : p2p.devices.length ≤ p2p.cfg.maxPeers
  goNegPeer : ∀ d ∈ p2p.goNegPeer, d ∈ p2p.devices
  invitePeer : ∀ d ∈ p2p.invitePeer, d ∈ p2p.devices
  sdPeer : ∀ d ∈ p2p.sdPeer, d ∈ p2p.devices
  pendingClientDiscGo : ∀ d ∈ p2p.pendingClientDiscGo, d ∈ p2p.devices

/-- The table may have changed: it is still in order, and no entry was freed in use as long as none
was in use. -/
structure Turns (p q : P2pData) : Prop where
  table : Table q
  cfg : q.cfg = p.cfg
  busy : q.busy = p.busy
  freed : p.busy = none → q.freed = p.freed

section TableChanges

variable {p q r : P2pData}

theorem Steady.turns (h : Steady p q) (ht : Table p) : Turns p q where
  table :=
    { pos := h.cfg ▸ ht.pos
      nodup := h.devices ▸ ht.nodup
      distinct := by
        rw [h.devices, h.addr]
        exact ht.distinct
      le := by
        rw [h.devices, h.cfg]
        exact ht.le
      goNegPeer := fun d hd => h.devices ▸ (h.goNegPeer d hd).elim (ht.goNegPeer d) id
      invitePeer := fun d hd => h.devices ▸ (h.invitePeer d hd).elim (ht.invitePeer d) id
      sdPeer := fun d hd => h.devices ▸ (h.sdPeer d hd).elim (ht.sdPeer d) id
      pendingClientDiscGo := fun d hd =>
        h.devices ▸ (h.pendingClientDiscGo d hd).elim (ht.pendingClientDiscGo d) id }
  cfg := h.cfg
  busy := h.busy
  freed _ := h.freed

theorem Turns.trans (h : Turns p q) (h' : Turns q r) : Turns p r where
  table := h'.table
  cfg := h'.cfg.trans h.cfg
  busy := h'.busy.trans h.busy
  freed hidle := (h'.freed (h.busy.trans hidle)).trans (h.freed hidle)

theorem Turns.refl (ht : Table p) : Turns p p := (Steady.refl p).turns ht

theorem mem_erase_of_cleared {x : Option ℕ} {devices : List ℕ} {dev : ℕ}
    (hx : ∀ d ∈ x, d ∈ devices) : ∀ d ∈ (if x = some dev then none else x), d ∈ devices.erase dev := by
  intro d hd
  split_ifs at hd with hne
  · simp at hd
  · have hd' : d ≠ dev := fun heq => hne (heq ▸ hd)
    exact (List.mem_erase_of_ne hd').mpr (hx d hd)

theorem removeDevice_freed (dev : ℕ) : (removeDevice p dev).freed =
    p.freed ++ if p.busy = some dev then [dev] else [] := by
  unfold removeDevice deviceFree P2pData.freed P2pData.fault
  by_cases hbusy : p.busy = some dev
  · simp [hbusy, MemError.freed?]
  · simp [hbusy]

theorem removeDevice_turns (ht : Table p) (dev : ℕ) : Turns p (removeDevice p dev) where
  table :=
    { pos := ht.pos
      nodup := ht.nodup.erase dev
      distinct := fun d hd e he =>
        ht.distinct d (List.mem_of_mem_erase hd) e (List.mem_of_mem_erase he)
      le := List.length_erase_le.trans ht.le
      goNegPeer := mem_erase_of_cleared ht.goNegPeer
      invitePeer := mem_erase_of_cleared ht.invitePeer
      sdPeer := mem_erase_of_cleared ht.sdPeer
      pendingClientDiscGo := mem_erase_of_cleared ht.pendingClientDiscGo }
  cfg := rfl
  busy := rfl
  freed hidle := by simp [removeDevice_freed, hidle]

/-! ### The oldest entry -/

theorem not_before_trans {a b c : OsTime} (hab : a.before b = false) (hbc : b.before c = false) :
    a.before c = false := by
  simp only [OsTime.before, Bool.or_eq_false_iff, Bool.and_eq_false_iff,
    decide_eq_false_iff_not] at *
  omega

theorem not_before_of_before {a b : OsTime} (h : a.before b = true) : b.before a = false := by
  simp only [OsTime.before, Bool.or_eq_true, Bool.and_eq_true, decide_eq_true_eq,
    Bool.or_eq_false_iff, Bool.and_eq_false_iff, decide_eq_false_iff_not] at *
  omega

theorem not_before_self (a : OsTime) : a.before a = false := by
  simp [OsTime.before]

theorem oldestFrom_le {mem : ℕ → P2pDevice} {o : Option ℕ} {ds : List ℕ} {r : ℕ}
    (h : oldestFrom mem o ds = some r) : ∀ d, o = some d ∨ d ∈ ds →
      (mem d).lastSeen.before (mem r).lastSeen = false := by
  induction ds generalizing o with
  | nil =>
    rintro d (rfl | hd)
    · obtain rfl : d = r := Option.some.inj h
      exact not_before_self _
    · simp at hd
  | cons x ds ih =>
    cases o with
    | none =>
      rintro d (hd | hd)
      · simp at hd
      · rcases List.mem_cons.mp hd with rfl | hd
        · exact ih h d (.inl rfl)
        · exact ih h d (.inr hd)
    | some o =>
      have hle := ih h
      rintro d (hd | hd)
      · obtain rfl : o = d := Option.some.inj hd
        by_cases hbefore : (mem x).lastSeen.before (mem o).lastSeen = true
        · have hx := hle x (.inl (by rw [if_pos hbefore]))
          exact not_before_trans (not_before_of_before hbefore) hx
        · exact hle o (.inl (by rw [if_neg hbefore]))
      · rcases List.mem_cons.mp hd with rfl | hd
        · by_cases hbefore : (mem d).lastSeen.before (mem o).lastSeen = true
          · exact hle d (.inl (by rw [if_pos hbefore]))
          · have ho := hle o (.inl (by rw [if_neg hbefore]))
            exact not_before_trans (by simpa using hbefore) ho
        · exact hle d (.inr hd)

theorem oldestFrom_mem {mem : ℕ → P2pDevice} {o : Option ℕ} {ds : List ℕ} {d : ℕ}
    (h : oldestFrom mem o ds = some d) : o = some d ∨ d ∈ ds := by
  induction ds generalizing o with
  | nil => exact .inl h
  | cons x ds ih =>
    cases o with
    | none =>
      rcases ih h with heq | hmem
      · exact .inr (Option.some.inj heq ▸ List.mem_cons_self)
      · exact .inr (List.mem_cons_of_mem x hmem)
    | some o =>
      rcases ih h with heq | hmem
      · split_ifs at heq
        · exact .inr (Option.some.inj heq ▸ List.mem_cons_self)
        · exact .inl heq
      · exact .inr (List.mem_cons_of_mem x hmem)

theorem oldest_mem {o : ℕ} (h : oldest p = some o) : o ∈ p.devices := by
  rcases oldestFrom_mem h with hnone | hmem
  · simp at hnone
  · exact hmem

theorem oldest_le {o : ℕ} (h : oldest p = some o) : ∀ d ∈ p.devices,
    (p.mem d).lastSeen.before (p.mem o).lastSeen = false :=
  fun d hd => oldestFrom_le h d (.inr hd)

theorem oldest_isSome (h : p.devices ≠ []) : (oldest p).isSome := by
  have hfrom : ∀ (ds : List ℕ) (o : ℕ), (oldestFrom p.mem (some o) ds).isSome := by
    intro ds
    induction ds with
    | nil => exact fun _ => rfl
    | cons x ds ih => exact fun _ => ih _
  unfold oldest
  cases hds : p.devices with
  | nil => exact absurd hds h
  | cons x ds => exact hfrom ds x

/-! ### A new entry -/

theorem makeRoom_turns (ht : Table p) : Turns p (makeRoom p) := by
  unfold makeRoom
  split_ifs
  · split
    · exact removeDevice_turns ht _
    · exact .refl ht
  · exact .refl ht

theorem makeRoom_length (ht : Table p) :
    (makeRoom p).devices.length + 1 ≤ p.cfg.maxPeers := by
  unfold makeRoom
  split_ifs with hfull
  · have hne : p.devices ≠ [] := by
      intro hnil
      have := ht.pos
      simp [hnil] at hfull
      omega
    obtain ⟨o, ho⟩ := Option.isSome_iff_exists.mp (oldest_isSome hne)
    rw [ho]
    have hlen := List.length_erase_of_mem (oldest_mem ho)
    have hpos := List.length_pos_of_mem (oldest_mem ho)
    have hle := ht.le
    change (p.devices.erase o).length + 1 ≤ _
    omega
  · omega

theorem makeRoom_subset {d : ℕ} (h : d ∈ (makeRoom p).devices) : d ∈ p.devices := by
  unfold makeRoom at h
  split_ifs at h
  · split at h
    · exact List.mem_of_mem_erase h
    · exact h
  · exact h

theorem makeRoom_mem : (makeRoom p).mem = p.mem := by
  unfold makeRoom
  split_ifs
  · split
    · rfl
    · rfl
  · rfl

variable {addr : MacAddr}

theorem addr_ne_of_getDevice (h : p.getDevice addr = none) :
    ∀ d ∈ p.devices, p.addr d ≠ addr := by
  intro d hd
  have := List.find?_eq_none.mp h d hd
  simpa [P2pData.addr] using this

theorem addr_of_getDevice {d : ℕ} (h : p.getDevice addr = some d) :
    p.addr d = addr := by
  have := List.find?_some h
  simpa [P2pData.addr] using this

theorem zallocDevice_not_mem {block : Option ℕ} {b : ℕ} (h : zallocDevice p block = some b) :
    b ∉ p.devices := by
  have := (Option.filter_eq_some_iff.mp h).2
  simpa using this

theorem createDevice_turns (ht : Table p) (addr : MacAddr) (block : Option ℕ) :
    Turns p (createDevice p addr block).1 := by
  unfold createDevice
  cases hget : p.getDevice addr with
  | some dev => exact .refl ht
  | none =>
    have hroom := makeRoom_turns ht
    dsimp only
    cases hz : zallocDevice (makeRoom p) block with
    | none => exact hroom
    | some b =>
      have hb := zallocDevice_not_mem hz
      have hother : ∀ d ∈ (makeRoom p).devices,
          (Function.update (makeRoom p).mem b (.zero addr) d).info.deviceAddr =
            (makeRoom p).addr d := by
        intro d hd
        have hne : d ≠ b := fun heq => hb (heq ▸ hd)
        rw [Function.update_of_ne hne]
        rfl
      have hnew : ∀ d ∈ (makeRoom p).devices, (makeRoom p).addr d ≠ addr := by
        intro d hd
        have := addr_ne_of_getDevice hget d (makeRoom_subset hd)
        rwa [P2pData.addr, makeRoom_mem]
      refine ⟨?_, hroom.cfg, hroom.busy, hroom.freed⟩
      refine
        { pos := hroom.table.pos
          nodup := List.nodup_cons.mpr ⟨hb, hroom.table.nodup⟩
          distinct := ?_
          le := ?_
          goNegPeer := fun d hd => List.mem_cons_of_mem b (hroom.table.goNegPeer d hd)
          invitePeer := fun d hd => List.mem_cons_of_mem b (hroom.table.invitePeer d hd)
          sdPeer := fun d hd => List.mem_cons_of_mem b (hroom.table.sdPeer d hd)
          pendingClientDiscGo := fun d hd =>
            List.mem_cons_of_mem b (hroom.table.pendingClientDiscGo d hd) }
      · intro d hd e he heq
        simp only [P2pData.addr] at heq
        rcases List.mem_cons.mp hd with rfl | hd'
        · rcases List.mem_cons.mp he with rfl | he'
          · rfl
          · rw [Function.update_self, hother e he'] at heq
            exact absurd heq.symm (hnew e he')
        · rcases List.mem_cons.mp he with rfl | he'
          · rw [Function.update_self, hother d hd'] at heq
            exact absurd heq (hnew d hd')
          · rw [hother d hd', hother e he'] at heq
            exact hroom.table.distinct d hd' e he' heq
      · have := makeRoom_length ht
        simpa [hroom.cfg] using this

theorem createDevice_spec {block : Option ℕ} {dev : ℕ}
    (h : (createDevice p addr block).2 = some dev) :
    dev ∈ (createDevice p addr block).1.devices ∧
      (createDevice p addr block).1.addr dev = addr ∧
      (∀ d ∈ (createDevice p addr block).1.devices, d ≠ dev →
        d ∈ p.devices ∧ (createDevice p addr block).1.mem d = p.mem d) := by
  unfold createDevice at h ⊢
  cases hget : p.getDevice addr with
  | some d =>
    rw [hget] at h
    obtain rfl : d = dev := Option.some.inj h
    exact ⟨getDevice_mem hget, addr_of_getDevice hget, fun e he _ => ⟨he, rfl⟩⟩
  | none =>
    rw [hget] at h
    dsimp only at h ⊢
    cases hz : zallocDevice (makeRoom p) block with
    | none => simp [hz] at h
    | some b =>
      rw [hz] at h
      obtain rfl : b = dev := Option.some.inj h
      refine ⟨List.mem_cons_self, ?_, ?_⟩
      · simp [P2pData.addr, P2pDevice.zero]
      · intro d hd hne
        have hd' := (List.mem_cons.mp hd).resolve_left hne
        refine ⟨makeRoom_subset hd', ?_⟩
        simp [Function.update_of_ne hne, makeRoom_mem]

/-- **Eviction.** A new entry in a full table takes the place of one that was seen least recently.
-/
theorem createDevice_evicts (hget : p.getDevice addr = none)
    (hfull : p.cfg.maxPeers ≤ p.devices.length) (hne : p.devices ≠ []) (block : Option ℕ) :
    ∃ o ∈ p.devices, (∀ d ∈ p.devices, (p.mem d).lastSeen.before (p.mem o).lastSeen = false) ∧
      ∃ new, (createDevice p addr block).1.devices = new ++ p.devices.erase o := by
  obtain ⟨o, ho⟩ := Option.isSome_iff_exists.mp (oldest_isSome hne)
  refine ⟨o, oldest_mem ho, oldest_le ho, ?_⟩
  have hroom : makeRoom p = removeDevice p o := by
    unfold makeRoom
    rw [if_pos (Nat.lt_succ_of_le hfull), ho]
  unfold createDevice
  rw [hget, hroom]
  dsimp only
  cases zallocDevice (removeDevice p o) block with
  | none => exact ⟨[], rfl⟩
  | some b => exact ⟨[b], rfl⟩

/-! ### Functions that create and remove entries -/

theorem foldl_removeDevice_turns (ht : Table p) (devs : List ℕ) (C : P2pData → ℕ → Prop)
    [∀ q d, Decidable (C q d)] :
    Turns p (devs.foldl (fun q d => if C q d then q else removeDevice q d) p) := by
  induction devs generalizing p with
  | nil => exact .refl ht
  | cons d devs ih =>
    rw [List.foldl_cons]
    split_ifs
    · exact ih ht
    · have hremove := removeDevice_turns ht d
      exact hremove.trans (ih hremove.table)

theorem expirePeers_turns (ht : Table p) (now : OsTime) : Turns p (expirePeers p now) :=
  foldl_removeDevice_turns ht p.devices fun q d =>
    (q.mem d).lastSeen.sec + peerExpirationAge ≥ now.sec

theorem flush_turns (ht : Table p) : Turns p (flush p) := by
  have hidle : Turns p
      { p.clearTimeout.setState .idle with startAfterScan := .nothing, goNegPeer := none } := by
    refine Steady.turns ?_ ht
    exact (((Aside.refl p).clearTimeout.setState .idle).dropGoNegPeer).steady.other rfl rfl rfl rfl
      rfl rfl rfl rfl rfl
  have hall := hidle.trans (foldl_removeDevice_turns hidle.table p.devices fun _ _ => False)
  simp only [if_false] at hall
  unfold flush
  dsimp only
  refine hall.trans (Steady.turns ?_ hall.table)
  exact (Steady.refl _).other rfl rfl rfl rfl rfl rfl rfl rfl rfl

theorem addDevFromGoNegReq_turns (env : Env) (ht : Table p) (addr : MacAddr) (msg : P2pMessage) :
    Turns p (addDevFromGoNegReq env p addr msg).1 ∧
      ∀ d ∈ (addDevFromGoNegReq env p addr msg).2,
        d ∈ (addDevFromGoNegReq env p addr msg).1.devices := by
  unfold addDevFromGoNegReq
  cases hget : p.getDevice addr with
  | some dev =>
    have hdev : dev ∈ p.devices := getDevice_mem hget
    have hseen := (Steady.refl p).modify dev (fun d => { d with lastSeen := env.clock 0 })
      fun _ => rfl
    refine ⟨hseen.turns ht, ?_⟩
    intro d hd
    obtain rfl : dev = d := Option.some.inj hd
    exact hdev
  | none =>
    have hcreate := createDevice_turns ht addr (env.block 0)
    dsimp only
    cases hc : createDevice p addr (env.block 0) with
    | mk q o =>
      rw [hc] at hcreate
      cases o with
      | none => exact ⟨hcreate, by simp⟩
      | some dev =>
        have hspec := createDevice_spec (congrArg Prod.snd hc)
        rw [hc] at hspec
        have hinfo : Aside q (addDevInfo env q addr dev msg) := addDevInfo_aside env addr dev msg
        refine ⟨hcreate.trans (hinfo.steady.turns hcreate.table), ?_⟩
        intro d hd
        obtain rfl : dev = d := Option.some.inj hd
        exact hinfo.devices ▸ hspec.1

theorem goNegReqDevice_turns (env : Env) (ht : Table p) (sa : MacAddr) (msg : P2pMessage) :
    Turns p (goNegReqDevice env p sa msg).1 ∧
      ∀ d ∈ (goNegReqDevice env p sa msg).2, d ∈ (goNegReqDevice env p sa msg).1.devices := by
  unfold goNegReqDevice
  cases hget : p.getDevice sa with
  | none => exact addDevFromGoNegReq_turns env ht sa msg
  | some dev =>
    have hdev : dev ∈ p.devices := getDevice_mem hget
    have hinfo : Aside p (addDevInfo env p sa dev msg) := addDevInfo_aside env sa dev msg
    dsimp only
    split_ifs
    · refine ⟨hinfo.steady.turns ht, ?_⟩
      intro d hd
      obtain rfl : dev = d := Option.some.inj hd
      exact hinfo.devices ▸ hdev
    · refine ⟨.refl ht, ?_⟩
      intro d hd
      obtain rfl : dev = d := Option.some.inj hd
      exact hdev

theorem processGoNegReq_turns (env : Env) (ht : Table p) (sa : MacAddr) (msg : Option P2pMessage)
    (rxFreq : ℤ) : Turns p (processGoNegReq env p sa msg rxFreq) := by
  unfold processGoNegReq
  cases msg with
  | none => exact .refl ht
  | some msg =>
    dsimp only
    cases goNegReqAttrs msg with
    | none => exact (answerGoNegReq_steady env _ _ _ _ _).turns ht
    | some attrs =>
      dsimp only
      split_ifs
      · exact (answerGoNegReq_steady env _ _ _ _ _).turns ht
      · exact (answerGoNegReq_steady env _ _ _ _ _).turns ht
      · have hdevice := goNegReqDevice_turns env ht sa msg
        generalize goNegReqDevice env p sa msg = r at hdevice
        obtain ⟨q, o⟩ := r
        have hjudge := judgeGoNegReq_steady env hdevice.2 sa msg attrs rxFreq
        dsimp only at hjudge ⊢
        generalize judgeGoNegReq env q o sa msg attrs rxFreq = r' at hjudge
        obtain ⟨q', status⟩ := r'
        have hturns := hdevice.1.trans (hjudge.turns hdevice.1.table)
        cases status with
        | none => exact hturns
        | some status =>
          exact hturns.trans ((answerGoNegReq_steady env _ _ _ _ _).turns hturns.table)

theorem takeListenChannel_aside (dev : ℕ) (attr : Option ChannelAttr) :
    Aside p (takeListenChannel p dev attr) := by
  unfold takeListenChannel
  split
  · exact .refl p
  · exact (Aside.refl p).modify _ _ fun _ => rfl

theorem addDevFromProbeReq_turns (env : Env) (ht : Table p) (addr : MacAddr)
    (msg : Option P2pMessage) : Turns p (addDevFromProbeReq env p addr msg) := by
  unfold addDevFromProbeReq
  cases msg with
  | none => exact .refl ht
  | some msg =>
    dsimp only
    split_ifs
    · exact .refl ht
    · exact .refl ht
    · split
      · split
        · split_ifs
          · refine Steady.turns ?_ ht
            exact (Steady.refl p).modify _ _ fun _ => rfl
          · exact .refl ht
        · exact .refl ht
      · have hcreate := createDevice_turns ht addr (env.block 0)
        cases hc : createDevice p addr (env.block 0) with
        | mk q o =>
          rw [hc] at hcreate
          cases o with
          | none => exact hcreate
          | some dev =>
            have hseen := (Aside.refl q).modify dev (fun d =>
              { d with lastSeen := env.clock 0, flags := { d.flags with probeReqOnly := true } })
              fun _ => rfl
            have hall := (hseen.trans (takeListenChannel_aside dev msg.listenChannel)).trans
              (copyWpsInfo_aside dev true msg)
            exact hcreate.trans (hall.steady.turns hcreate.table)

/-! ### The clients of a group -/

theorem addGroupClient_turns (ht : Table p) (goDevAddr goInterfaceAddr : MacAddr) (freq : ℤ)
    (cli : ClientInfo) (now : OsTime) (block : Option ℕ) :
    Turns p (addGroupClient p goDevAddr goInterfaceAddr freq cli now block) := by
  unfold addGroupClient
  split
  · rename_i dev _
    refine Steady.turns ?_ ht
    exact (updateClient_aside dev cli).steady.modify dev (seenInGroup _ _ _ _) fun _ => rfl
  · have hcreate := createDevice_turns ht cli.deviceAddr block
    split
    · rename_i q hc
      rw [hc] at hcreate
      exact hcreate
    · rename_i q dev hc
      rw [hc] at hcreate
      refine hcreate.trans (Steady.turns ?_ hcreate.table)
      exact (newClient_aside dev cli freq).steady.modify dev (seenInGroup _ _ _ _) fun _ => rfl

theorem addGroupClientsFrom_turns (env : Env) (ht : Table p) (goDevAddr goInterfaceAddr : MacAddr)
    (freq : ℤ) (c : ℕ) (clients : List ClientInfo) :
    Turns p (addGroupClientsFrom env goDevAddr goInterfaceAddr freq c p clients) := by
  induction clients generalizing p c with
  | nil => exact .refl ht
  | cons cli clients ih =>
    have hone := addGroupClient_turns ht goDevAddr goInterfaceAddr freq cli (env.clock (c + 1))
      (env.block (c + 1))
    exact hone.trans (ih hone.table (c + 1))

theorem foldl_memberInGoIface_aside (iface : MacAddr) (devs : List ℕ) :
    Aside p (devs.foldl (fun q d => q.modify d fun e => { e with memberInGoIface := iface }) p) := by
  induction devs generalizing p with
  | nil => exact .refl p
  | cons d devs ih =>
    exact ((Aside.refl p).modify d (fun e => { e with memberInGoIface := iface })
      fun _ => rfl).trans ih

theorem addGroupClients_turns (env : Env) (ht : Table p) (goDevAddr goInterfaceAddr : MacAddr)
    (freq : ℤ) (groupInfo : Option Bytes) :
    Turns p (addGroupClients env p goDevAddr goInterfaceAddr freq groupInfo) := by
  unfold addGroupClients
  cases groupInfo with
  | none => exact .refl ht
  | some gi =>
    have hread : Aside p (p.fault (groupInfoParse maxGroupEntries gi).2 .overread) :=
      (Aside.refl p).fault _ _ rfl
    dsimp only
    generalize p.fault (groupInfoParse maxGroupEntries gi).2 .overread = q at hread ⊢
    cases (groupInfoParse maxGroupEntries gi).1 with
    | none => exact hread.steady.turns ht
    | some clients =>
      have hcopy := hread.trans (foldl_memberInGoIface_aside goInterfaceAddr q.devices)
      have hturns := hcopy.steady.turns ht
      exact hturns.trans (addGroupClientsFrom_turns env hturns.table _ _ _ _ _)

/-! ### A peer -/

theorem Table.use (ht : Table p) (busy : Option ℕ) : Table { p with busy := busy } :=
  ⟨ht.pos, ht.nodup, ht.distinct, ht.le, ht.goNegPeer, ht.invitePeer, ht.sdPeer,
    ht.pendingClientDiscGo⟩

/-- What a call of `p2p_add_device` leaves behind. -/
structure Added (p q : P2pData) : Prop where
  table : Table q
  cfg : q.cfg = p.cfg
  busy : q.busy = none

theorem addDevice_added (env : Env) (ht : Table p) (hidle : p.busy = none) (addr : MacAddr)
    (freq level : ℤ) (msg : Option P2pMessage) :
    Added p (addDevice env p addr freq level msg).1 := by
  have hsame : Added p p := ⟨ht, rfl, hidle⟩
  unfold addDevice
  cases msg with
  | none => exact hsame
  | some msg =>
    dsimp only
    cases msg.deviceAddr with
    | none => exact hsame
    | some devAddr =>
      dsimp only
      split_ifs
      · exact hsame
      · have hcreate := createDevice_turns ht devAddr (env.block 0)
        cases hc : createDevice p devAddr (env.block 0) with
        | mk q o =>
          rw [hc] at hcreate
          cases o with
          | none => exact ⟨hcreate.table, hcreate.cfg, hcreate.busy.trans hidle⟩
          | some dev =>
            have hfill : Steady { q with busy := some dev } _ :=
              (fillDevice_aside env dev addr devAddr freq level msg).steady
            have hfilled := hfill.turns (hcreate.table.use (some dev))
            have hclients := hfilled.trans (addGroupClients_turns env hfilled.table devAddr addr
              (dsFreq freq msg.dsParams) msg.groupInfo)
            have hreport := hclients.trans
              ((reportDevice_aside dev addr).steady.turns hclients.table)
            exact ⟨hreport.table.use none, hreport.cfg.trans hcreate.cfg, rfl⟩

end TableChanges

end Hostapd.P2p
