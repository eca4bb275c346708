import Mathlib.Data.Finset.Card
import Hostapd.P2p.Table

/-!
# The table over runs

* **`peer_table`**: in every run in which the clients of a group fit the table, the table is in
  order in every state, and no entry is freed while `p2p_add_device` works on it.
* **`ClientsFit`**: what the clients must meet. A Group Info lists up to 49 of them, each may take
  the place of the entry that was seen least recently, and once all others have been seen in this
  call, this is the entry of the GO itself.
-/

namespace Hostapd.P2p

open Hostapd.Lib

open Hostapd.Utils.Eloop (OsTime)

/-! ## The entry in use -/

section InUse

variable (clock : ℕ → OsTime) (n : ℕ) (listed : Finset MacAddr)

/-- While the clients are added, every other entry is that of a client or was last seen before. -/
structure Held (p : P2pData) (dev : ℕ) : Prop where
  table : Table p
  busy : p.busy = some dev
  mem : dev ∈ p.devices
  time : ∃ i ≤ n, (p.mem dev).lastSeen = clock i
  older : ∀ d ∈ p.devices, d ≠ dev →
    p.addr d ∈ listed ∨ ∀ i ≤ n, (p.mem d).lastSeen.before (clock i) = true
  fits : (listed.erase (p.addr dev)).card < p.cfg.maxPeers

variable {clock n listed} {p q : P2pData} {dev : ℕ}

theorem Held.of_steady (h : Held clock n listed p dev) (hs : Steady p q)
    (htime : ∀ d, (q.mem d).lastSeen = (p.mem d).lastSeen) : Held clock n listed q dev where
  table := (hs.turns h.table).table
  busy := hs.busy.trans h.busy
  mem := hs.devices ▸ h.mem
  time := by
    rw [htime]
    exact h.time
  older d hd hne := by
    rw [hs.addr, htime]
    exact h.older d (hs.devices ▸ hd) hne
  fits := by
    rw [hs.addr, hs.cfg]
    exact h.fits

theorem Held.touch (h : Held clock n listed p dev) {d i : ℕ} (hi : i ≤ n)
    {f : P2pDevice → P2pDevice} (haddr : ∀ e, (f e).info.deviceAddr = e.info.deviceAddr)
    (hf : ∀ e, (f e).lastSeen = clock i) (hd : p.addr d ∈ listed) :
    Held clock n listed (p.modify d f) dev := by
  have hs : Steady p (p.modify d f) := (Steady.refl p).modify d f haddr
  refine ⟨(hs.turns h.table).table, h.busy, h.mem, ?_, ?_, ?_⟩
  · by_cases heq : dev = d
    · subst heq
      exact ⟨i, hi, by simp [P2pData.modify, hf]⟩
    · obtain ⟨j, hj, hlast⟩ := h.time
      exact ⟨j, hj, by simp [P2pData.modify, Function.update_of_ne heq, hlast]⟩
  · intro e he hne
    rw [hs.addr]
    by_cases heq : e = d
    · subst heq
      exact .inl hd
    · have hsame : (p.modify d f).mem e = p.mem e := Function.update_of_ne heq _ _
      rw [hsame]
      exact h.older e he hne
  · rw [hs.addr]
    exact h.fits

variable {addr : MacAddr}

theorem Held.oldest_ne (h : Held clock n listed p dev) (hlisted : addr ∈ listed)
    (hget : p.getDevice addr = none) (hfull : p.devices.length + 1 > p.cfg.maxPeers) :
    oldest p ≠ some dev := by
  intro hoold
  -- all other entries are those of clients, none of which is this one
  have hclients : ∀ d ∈ p.devices, d ≠ dev → p.addr d ∈ listed := by
    intro d hd hne
    rcases h.older d hd hne with hmem | hbefore
    · exact hmem
    · obtain ⟨i, hi, htime⟩ := h.time
      have := oldest_le hoold d hd
      rw [htime, hbefore i hi] at this
      exact absurd this (by simp)
  have hne : ∀ d ∈ p.devices, p.addr d ≠ addr := addr_ne_of_getDevice hget
  have hsub : (p.devices.toFinset.erase dev).image p.addr ⊆
      (listed.erase (p.addr dev)).erase addr := by
    intro a ha
    obtain ⟨d, hd, rfl⟩ := Finset.mem_image.mp ha
    obtain ⟨hned, hmem⟩ := Finset.mem_erase.mp hd
    have hd' : d ∈ p.devices := List.mem_toFinset.mp hmem
    refine Finset.mem_erase.mpr ⟨hne d hd', Finset.mem_erase.mpr ⟨?_, hclients d hd' hned⟩⟩
    exact fun heq => hned (h.table.distinct d hd' dev h.mem heq)
  have hinj : ((p.devices.toFinset.erase dev).image p.addr).card = p.devices.length - 1 := by
    rw [Finset.card_image_of_injOn, Finset.card_erase_of_mem (List.mem_toFinset.mpr h.mem),
      List.toFinset_card_of_nodup h.table.nodup]
    intro d hd e he heq
    have hd' := List.mem_toFinset.mp (Finset.mem_of_mem_erase hd)
    have he' := List.mem_toFinset.mp (Finset.mem_of_mem_erase he)
    exact h.table.distinct d hd' e he' heq
  have hmem : addr ∈ listed.erase (p.addr dev) :=
    Finset.mem_erase.mpr ⟨(hne dev h.mem).symm, hlisted⟩
  have hcard := Finset.card_le_card hsub
  rw [hinj, Finset.card_erase_of_mem hmem] at hcard
  have hpos := Finset.card_pos.mpr ⟨addr, hmem⟩
  have hlen := List.length_pos_of_mem h.mem
  have hfits := h.fits
  omega

theorem Held.makeRoom (h : Held clock n listed p dev) (hlisted : addr ∈ listed)
    (hget : p.getDevice addr = none) :
    Held clock n listed (makeRoom p) dev ∧ (makeRoom p).freed = p.freed := by
  unfold P2p.makeRoom
  split_ifs with hfull
  · cases ho : oldest p with
    | none => exact ⟨h, rfl⟩
    | some o =>
      have hne : o ≠ dev := fun heq => h.oldest_ne hlisted hget hfull (heq ▸ ho)
      refine ⟨⟨(removeDevice_turns h.table o).table, h.busy,
        (List.mem_erase_of_ne hne.symm).mpr h.mem, h.time, ?_, h.fits⟩, ?_⟩
      · exact fun d hd hned => h.older d (List.mem_of_mem_erase hd) hned
      · have hbusy : p.busy ≠ some o := by
          rw [h.busy]
          exact fun heq => hne (Option.some.inj heq).symm
        simp [removeDevice_freed, hbusy]
  · exact ⟨h, rfl⟩

theorem Held.createDevice (h : Held clock n listed p dev)
    (hlisted : addr ∈ listed) (block : Option ℕ) :
    Held clock n listed (createDevice p addr block).1 dev ∧
      (createDevice p addr block).1.freed = p.freed := by
  have hturns := createDevice_turns h.table addr block
  unfold P2p.createDevice at hturns ⊢
  cases hget : p.getDevice addr with
  | some d => exact ⟨h, rfl⟩
  | none =>
    rw [hget] at hturns
    obtain ⟨hroom, hfreed⟩ := h.makeRoom hlisted hget
    dsimp only at hturns ⊢
    cases hz : zallocDevice (P2p.makeRoom p) block with
    | none => exact ⟨hroom, hfreed⟩
    | some b =>
      rw [hz] at hturns
      have hb : b ∉ (P2p.makeRoom p).devices := zallocDevice_not_mem hz
      have hne : ∀ d ∈ (P2p.makeRoom p).devices, d ≠ b := fun d hd heq => hb (heq ▸ hd)
      have hsame : ∀ d ∈ (P2p.makeRoom p).devices,
          Function.update (P2p.makeRoom p).mem b (.zero addr) d = (P2p.makeRoom p).mem d :=
        fun d hd => Function.update_of_ne (hne d hd) _ _
      refine ⟨⟨hturns.table, hroom.busy, List.mem_cons_of_mem b hroom.mem, ?_, ?_, ?_⟩, hfreed⟩
      · obtain ⟨i, hi, htime⟩ := hroom.time
        exact ⟨i, hi, by simpa [hsame dev hroom.mem] using htime⟩
      · intro d hd hned
        rcases List.mem_cons.mp hd with rfl | hd'
        · exact .inl (by simpa [P2pData.addr, P2pDevice.zero] using hlisted)
        · simpa [P2pData.addr, hsame d hd'] using hroom.older d hd' hned
      · simpa [P2pData.addr, hsame dev hroom.mem] using hroom.fits

theorem modify_mem (d e : ℕ) (f : P2pDevice → P2pDevice) :
    (p.modify d f).mem e = if e = d then f (p.mem d) else p.mem e :=
  Function.update_apply p.mem d (f (p.mem d)) e

theorem setFlags_mem (d e : ℕ) (f : DevFlags → DevFlags) : (p.setFlags d f).mem e =
    if e = d then { p.mem d with flags := f (p.mem d).flags } else p.mem e :=
  modify_mem d e _

theorem emit_mem (o : Out) : (p.emit o).mem = p.mem := rfl

theorem fault_mem (bad : Bool) (e : MemError) : (p.fault bad e).mem = p.mem := rfl

theorem copyClientInfo_lastSeen (d e : ℕ) (cli : ClientInfo) :
    ((copyClientInfo p d cli).mem e).lastSeen = (p.mem e).lastSeen := by
  by_cases heq : e = d
  · simp [copyClientInfo, fault_mem, modify_mem, heq]
  · simp [copyClientInfo, fault_mem, modify_mem, heq]

theorem updateClient_lastSeen (d e : ℕ) (cli : ClientInfo) :
    ((updateClient p d cli).mem e).lastSeen = (p.mem e).lastSeen := by
  unfold updateClient
  dsimp only
  split_ifs
  · by_cases heq : e = d
    · simp [setFlags_mem, heq, copyClientInfo_lastSeen]
    · simp [setFlags_mem, heq, copyClientInfo_lastSeen]
  · by_cases heq : e = d
    · simp [setFlags_mem, heq]
    · simp [setFlags_mem, heq]

theorem newClient_lastSeen (d e : ℕ) (cli : ClientInfo) (freq : ℤ) :
    ((newClient p d cli freq).mem e).lastSeen = (p.mem e).lastSeen := by
  by_cases heq : e = d
  · simp [newClient, setFlags_mem, emit_mem, modify_mem, copyClientInfo_lastSeen, heq]
  · simp [newClient, setFlags_mem, emit_mem, modify_mem, copyClientInfo_lastSeen, heq]

theorem Held.addGroupClient (h : Held clock n listed p dev) {cli : ClientInfo}
    (hlisted : cli.deviceAddr ∈ listed) (goDevAddr goInterfaceAddr : MacAddr) (freq : ℤ) {i : ℕ}
    (hi : i ≤ n) (block : Option ℕ) :
    Held clock n listed (addGroupClient p goDevAddr goInterfaceAddr freq cli (clock i) block) dev ∧
      (addGroupClient p goDevAddr goInterfaceAddr freq cli (clock i) block).freed = p.freed := by
  unfold P2p.addGroupClient
  cases hget : p.getDevice cli.deviceAddr with
  | some d =>
    have hupdate : Aside p (updateClient p d cli) := updateClient_aside d cli
    have hheld := h.of_steady hupdate.steady fun e => updateClient_lastSeen d e cli
    have haddr : (updateClient p d cli).addr d ∈ listed := by
      rw [hupdate.steady.addr, addr_of_getDevice hget]
      exact hlisted
    refine ⟨hheld.touch hi (fun _ => rfl) (fun _ => rfl) haddr, ?_⟩
    exact hupdate.steady.freed
  | none =>
    obtain ⟨hcreate, hfreed⟩ := h.createDevice hlisted block
    dsimp only
    cases hc : P2p.createDevice p cli.deviceAddr block with
    | mk q o =>
      rw [hc] at hcreate hfreed
      cases o with
      | none => exact ⟨hcreate, hfreed⟩
      | some d =>
        have hspec := createDevice_spec (congrArg Prod.snd hc)
        rw [hc] at hspec
        have hnew : Aside q (newClient q d cli freq) := newClient_aside d cli freq
        have hheld := hcreate.of_steady hnew.steady fun e => newClient_lastSeen d e cli freq
        have haddr : (newClient q d cli freq).addr d ∈ listed := by
          rw [hnew.steady.addr, hspec.2.1]
          exact hlisted
        refine ⟨hheld.touch hi (fun _ => rfl) (fun _ => rfl) haddr, ?_⟩
        exact hnew.steady.freed.trans hfreed

theorem Held.addGroupClientsFrom {env : Env} (h : Held env.clock n listed p dev)
    (goDevAddr goInterfaceAddr : MacAddr) (freq : ℤ) {clients : List ClientInfo} {c : ℕ}
    (hlisted : ∀ cli ∈ clients, cli.deviceAddr ∈ listed) (hc : c + clients.length ≤ n) :
    (addGroupClientsFrom env goDevAddr goInterfaceAddr freq c p clients).freed = p.freed := by
  induction clients generalizing p c with
  | nil => rfl
  | cons cli clients ih =>
    have hlen : c + 1 + clients.length ≤ n := by
      simp only [List.length_cons] at hc
      omega
    obtain ⟨hone, hfreed⟩ := h.addGroupClient (hlisted cli List.mem_cons_self) goDevAddr
      goInterfaceAddr freq
      (show c + 1 ≤ n by omega) (env.block (c + 1))
    exact (ih hone (fun x hx => hlisted x (List.mem_cons_of_mem cli hx)) hlen).trans hfreed

end InUse

/-! ## The condition -/

def clientsOf (msg : P2pMessage) : List ClientInfo :=
  ((msg.groupInfo.bind fun gi => (groupInfoParse maxGroupEntries gi).1)).getD []

/-- The clients that a message lists fit the table beside the entry of the sender: there are fewer
than `max_peers` of them, and the clock has moved on since the other entries were seen. -/
def ClientsFit (env : Env) (p2p : P2pData) (msg : P2pMessage) : Prop :=
  clientsOf msg ≠ [] → ∀ own ∈ msg.deviceAddr,
    (((clientsOf msg).map ClientInfo.deviceAddr).toFinset.erase own).card < p2p.cfg.maxPeers ∧
      ∀ d ∈ p2p.devices, p2p.addr d ≠ own → ∀ i ≤ (clientsOf msg).length,
        (p2p.mem d).lastSeen.before (env.clock i) = true

def Fits (p2p : P2pData) (a : Env × Input) : Prop :=
  match a.2 with
  | .scanRes _ _ _ (some msg) => ClientsFit a.1 p2p msg
  | .invitationReq sa (some msg) _ => knownDevice p2p sa = none → ClientsFit a.1 p2p msg
  | _ => True

section Runs

variable {p q : P2pData}

theorem fillDevice_lastSeen (env : Env) (dev : ℕ) (addr devAddr : MacAddr) (freq level : ℤ)
    (msg : P2pMessage) (e : ℕ) : ((fillDevice env p dev addr devAddr freq level msg).mem e).lastSeen =
      if e = dev then env.clock 0 else (p.mem e).lastSeen := by
  have hssid : ∀ r : P2pData, ((copySsid r dev msg.ssid).mem e).lastSeen = (r.mem e).lastSeen := by
    intro r
    unfold copySsid
    split
    · rfl
    · dsimp only
      split_ifs
      · rfl
      · by_cases heq : e = dev
        · simp [fault_mem, modify_mem, heq]
        · simp [fault_mem, modify_mem, heq]
  by_cases heq : e = dev
  · subst heq
    simp [fillDevice, copyWpsInfo, fault_mem, modify_mem, hssid]
  · simp [fillDevice, copyWpsInfo, fault_mem, modify_mem, hssid, heq]

variable {msg : P2pMessage}

theorem addGroupClients_freed_of_nil (env : Env) (goDevAddr goInterfaceAddr : MacAddr) (freq : ℤ)
    (h : clientsOf msg = []) :
    (addGroupClients env p goDevAddr goInterfaceAddr freq msg.groupInfo).freed = p.freed := by
  unfold clientsOf at h
  unfold addGroupClients
  cases hgi : msg.groupInfo with
  | none => rfl
  | some gi =>
    rw [hgi] at h
    have hread : Aside p (p.fault (groupInfoParse maxGroupEntries gi).2 .overread) :=
      (Aside.refl p).fault _ _ rfl
    dsimp only
    generalize p.fault (groupInfoParse maxGroupEntries gi).2 .overread = q at hread ⊢
    cases hr : (groupInfoParse maxGroupEntries gi).1 with
    | none => exact hread.steady.freed
    | some clients =>
      simp only [Option.bind_some, hr, Option.getD_some] at h
      subst h
      exact (hread.trans (foldl_memberInGoIface_aside goInterfaceAddr q.devices)).steady.freed

theorem foldl_memberInGoIface_lastSeen (iface : MacAddr) (devs : List ℕ) (e : ℕ) :
    ((devs.foldl (fun q d => q.modify d fun x => { x with memberInGoIface := iface }) p).mem
      e).lastSeen = (p.mem e).lastSeen := by
  induction devs generalizing p with
  | nil => rfl
  | cons d devs ih =>
    refine ih.trans ?_
    by_cases heq : e = d
    · simp [modify_mem, heq]
    · simp [modify_mem, heq]

variable {env : Env}

theorem Held.addGroupClients {dev : ℕ}
    (h : Held env.clock (clientsOf msg).length ((clientsOf msg).map ClientInfo.deviceAddr).toFinset
      p dev) (goDevAddr goInterfaceAddr : MacAddr) (freq : ℤ) :
    (addGroupClients env p goDevAddr goInterfaceAddr freq msg.groupInfo).freed = p.freed := by
  by_cases hnil : clientsOf msg = []
  · exact addGroupClients_freed_of_nil env goDevAddr goInterfaceAddr freq hnil
  · unfold clientsOf at hnil
    unfold P2p.addGroupClients
    cases hgi : msg.groupInfo with
    | none => rfl
    | some gi =>
      have hread : Aside p (p.fault (groupInfoParse maxGroupEntries gi).2 .overread) :=
        (Aside.refl p).fault _ _ rfl
      have hheld := h.of_steady hread.steady fun _ => rfl
      dsimp only
      generalize p.fault (groupInfoParse maxGroupEntries gi).2 .overread = q at hread hheld ⊢
      cases hr : (groupInfoParse maxGroupEntries gi).1 with
      | none => exact hread.steady.freed
      | some clients =>
        have hclients : clientsOf msg = clients := by
          simp [clientsOf, hgi, hr]
        have hcopy := hheld.of_steady
          (foldl_memberInGoIface_aside goInterfaceAddr q.devices).steady
          fun e => foldl_memberInGoIface_lastSeen goInterfaceAddr q.devices e
        have hlisted : ∀ cli ∈ clients,
            cli.deviceAddr ∈ ((clientsOf msg).map ClientInfo.deviceAddr).toFinset := by
          intro cli hcli
          rw [hclients]
          exact List.mem_toFinset.mpr (List.mem_map_of_mem hcli)
        have hcount : 0 + clients.length ≤ (clientsOf msg).length := by
          rw [hclients, Nat.zero_add]
        have hloop := hcopy.addGroupClientsFrom goDevAddr goInterfaceAddr freq hlisted hcount
        refine hloop.trans ?_
        exact (hread.trans (foldl_memberInGoIface_aside goInterfaceAddr q.devices)).steady.freed

theorem addDevice_freed (ht : Table p) (hidle : p.busy = none)
    (hfit : ClientsFit env p msg) (addr : MacAddr) (freq level : ℤ) :
    (addDevice env p addr freq level (some msg)).1.freed = p.freed := by
  unfold addDevice
  dsimp only
  cases hown : msg.deviceAddr with
  | none => rfl
  | some devAddr =>
    dsimp only
    split_ifs
    · rfl
    · have hcreate := createDevice_turns ht devAddr (env.block 0)
      cases hc : createDevice p devAddr (env.block 0) with
      | mk q o =>
        rw [hc] at hcreate
        have hfreed : q.freed = p.freed := hcreate.freed hidle
        cases o with
        | none => exact hfreed
        | some dev =>
          obtain ⟨hmem, haddr, hothers⟩ := createDevice_spec (congrArg Prod.snd hc)
          rw [hc] at hmem haddr hothers
          have hfill : Steady { q with busy := some dev }
              (fillDevice env { q with busy := some dev } dev addr devAddr freq level msg) :=
            (fillDevice_aside env dev addr devAddr freq level msg).steady
          have htimes := fillDevice_lastSeen (p := { q with busy := some dev }) env dev addr devAddr
            freq level msg
          dsimp only
          generalize fillDevice env { q with busy := some dev } dev addr devAddr freq level msg = r
            at hfill htimes ⊢
          have hclients : (addGroupClients env r devAddr addr (dsFreq freq msg.dsParams)
              msg.groupInfo).freed = r.freed := by
            by_cases hnil : clientsOf msg = []
            · exact addGroupClients_freed_of_nil env devAddr addr _ hnil
            · obtain ⟨hcard, hlater⟩ := hfit hnil devAddr hown
              refine Held.addGroupClients ⟨(hfill.turns (hcreate.table.use _)).table, hfill.busy,
                hfill.devices ▸ hmem, ⟨0, Nat.zero_le _, ?_⟩, ?_, ?_⟩ devAddr addr _
              · rw [htimes, if_pos rfl]
              · intro d hd hne
                rw [htimes, if_neg hne]
                have hd' : d ∈ q.devices := hfill.devices ▸ hd
                obtain ⟨hold, hsame⟩ := hothers d hd' hne
                have hown : p.addr d ≠ devAddr := by
                  intro heq
                  refine hne (hcreate.table.distinct d hd' dev hmem ?_)
                  rw [haddr, ← heq]
                  exact congrArg (fun e => e.info.deviceAddr) hsame
                exact .inr fun i hi => by
                  rw [hsame]
                  exact hlater d hold hown i hi
              · rw [hfill.addr, hfill.cfg]
                change ((_ : Finset MacAddr).erase (q.addr dev)).card < q.cfg.maxPeers
                rw [haddr, hcreate.cfg]
                exact hcard
          have hreport := (reportDevice_aside (p := addGroupClients env r devAddr addr
            (dsFreq freq msg.dsParams) msg.groupInfo) dev addr).steady.freed
          exact ((hreport.trans hclients).trans hfill.freed).trans hfreed

structure Orderly (p2p : P2pData) : Prop where
  table : Table p2p
  busy : p2p.busy = none
  freed : p2p.freed = []

theorem Turns.orderly (h : Turns p q) (ho : Orderly p) : Orderly q :=
  ⟨h.table, h.busy.trans ho.busy, (h.freed ho.busy).trans ho.freed⟩

theorem Steady.orderly (h : Steady p q) (ho : Orderly p) : Orderly q :=
  (h.turns ho.table).orderly ho

variable {msg : Option P2pMessage}

theorem addDevice_orderly (ho : Orderly p)
    (hfit : ∀ m ∈ msg, ClientsFit env p m) (addr : MacAddr) (freq level : ℤ) :
    Orderly (addDevice env p addr freq level msg).1 := by
  have hadded := addDevice_added env ho.table ho.busy addr freq level msg
  refine ⟨hadded.table, hadded.busy, ?_⟩
  cases msg with
  | none => exact ho.freed
  | some msg =>
    exact (addDevice_freed ho.table ho.busy (hfit msg rfl) addr freq level).trans ho.freed

theorem scanResHandler_orderly (ho : Orderly p) (bssid : MacAddr) (freq level : ℤ)
    (hfit : ∀ m ∈ msg, ClientsFit env p m) :
    Orderly (scanResHandler env p bssid freq level msg) := by
  have hadd := addDevice_orderly ho hfit bssid freq level
  unfold scanResHandler
  dsimp only
  generalize (addDevice env p bssid freq level msg).1 = q at hadd ⊢
  cases hpeer : q.goNegPeer with
  | none => exact hadd
  | some dev =>
    dsimp only
    split_ifs
    · exact (connectSend_steady env (.inl hpeer)).orderly hadd
    · exact hadd

theorem processInvitationReq_orderly (ho : Orderly p) {sa : MacAddr}
    (rxFreq : ℤ)
    (hfit : ∀ m ∈ msg, knownDevice p sa = none → ClientsFit env p m) :
    Orderly (processInvitationReq env p sa msg rxFreq) := by
  unfold processInvitationReq
  cases msg with
  | none => exact ho
  | some msg =>
    dsimp only
    cases hknown : knownDevice p sa with
    | some dev => exact (judgeInvitationReq_aside env dev sa msg rxFreq).steady.orderly ho
    | none =>
      have hadd := addDevice_orderly ho (fun m hm => hfit m hm hknown : ∀ m ∈ some msg, ClientsFit env p m)
        sa rxFreq 0
      cases ha : addDevice env p sa rxFreq 0 (some msg) with
      | mk q ok =>
        rw [ha] at hadd
        cases ok with
        | false => exact (answerInvitation_aside env _ _ _ _ _).steady.orderly hadd
        | true =>
          dsimp only
          split
          · exact (answerInvitation_aside env _ _ _ _ _).steady.orderly hadd
          · exact (judgeInvitationReq_aside env _ _ _ _).steady.orderly hadd

theorem step_orderly (ho : Orderly p) (a : Env × Input) (hfit : Fits p a) :
    Orderly (step p a) := by
  obtain ⟨env, i⟩ := a
  cases i with
  | goNegReq sa msg rxFreq => exact (processGoNegReq_turns env ho.table sa msg rxFreq).orderly ho
  | goNegResp sa msg rxFreq => exact (processGoNegResp_steady env sa msg rxFreq).orderly ho
  | goNegConf sa msg => exact (processGoNegConf_steady env sa msg).orderly ho
  | invitationReq sa msg rxFreq =>
    refine processInvitationReq_orderly ho rxFreq ?_
    intro m hm
    obtain rfl : msg = some m := hm
    exact hfit
  | invitationResp sa msg => exact (processInvitationResp_aside sa msg).steady.orderly ho
  | scanRes bssid freq level msg =>
    refine scanResHandler_orderly ho bssid freq level ?_
    intro m hm
    obtain rfl : msg = some m := hm
    exact hfit
  | scanResHandled usec => exact (scanResHandled_steady env usec).orderly ho
  | scanTimeout => exact (scanTimeout_steady env).orderly ho
  | probeReq addr msg => exact (addDevFromProbeReq_turns env ho.table addr msg).orderly ho
  | sendActionCb result usec => exact (sendActionCb_steady env result usec).orderly ho
  | stateTimeout usec =>
    unfold step input
    dsimp only
    split
    · exact (((Steady.refl p).clearTimeout).trans (stateTimeout_steady env usec)).orderly ho
    · exact ho
  | listenCb freq => exact (listenCb_aside freq).steady.orderly ho
  | listenEnd usec => exact (listenEnd_steady env usec).orderly ho
  | goNegStart => exact (goNegStart_steady env).orderly ho
  | inviteStart => exact (inviteStart_aside env).steady.orderly ho
  | expire now => exact (expirePeers_turns ho.table now).orderly ho
  | connect params => exact (connect_steady env params).orderly ho
  | authorize params => exact (authorize_steady params).orderly ho
  | unauthorize addr => exact (unauthorize_steady addr).orderly ho
  | reject addr => exact (reject_aside addr).steady.orderly ho
  | invite params => exact (invite_steady env params).orderly ho
  | stopFind => exact (stopFindForFreq_aside 0).steady.orderly ho
  | wpsSuccess macAddr => exact (wpsSuccessCb_aside macAddr).steady.orderly ho
  | groupFormationFailed => exact groupFormationFailed_aside.steady.orderly ho
  | flush => exact (flush_turns ho.table).orderly ho

theorem init_orderly {cfg : P2pConfig} (hmax : 0 < cfg.maxPeers) (tieBreaker : Bool)
    (devCapab : UInt8) : Orderly (init cfg tieBreaker devCapab) := by
  refine ⟨⟨hmax, List.nodup_nil, ?_, Nat.zero_le _, ?_, ?_, ?_, ?_⟩, rfl, rfl⟩
  · exact fun d hd => absurd hd List.not_mem_nil
  · exact fun d hd => by simp [init] at hd
  · exact fun d hd => by simp [init] at hd
  · exact fun d hd => by simp [init] at hd
  · exact fun d hd => by simp [init] at hd

end Runs

/-! ## Runs -/

/-- **The peer table.** In every run in which the clients of a group fit the table, the addresses in
the table are distinct, it holds at most `max_peers` entries, the pointers of the module lead to
entries of it, and no entry is freed while `p2p_add_device` works on it. Whatever the state is, a
new entry in a full table takes the place of one that was seen least recently. -/
theorem peer_table {cfg : P2pConfig} (hmax : 0 < cfg.maxPeers) (tieBreaker : Bool)
    (devCapab : UInt8) {l : List (Env × Input)}
    (hl : Along step Fits (init cfg tieBreaker devCapab) l) :
    Table (run step (init cfg tieBreaker devCapab) l) ∧
      (∀ d, MemError.freedInUse d ∉ (run step (init cfg tieBreaker devCapab) l).errors) ∧
      ∀ (p : P2pData) (addr : MacAddr) (block : Option ℕ), 0 < p.cfg.maxPeers →
        p.getDevice addr = none → p.cfg.maxPeers ≤ p.devices.length →
        ∃ o ∈ p.devices, (∀ d ∈ p.devices, (p.mem d).lastSeen.before (p.mem o).lastSeen = false) ∧
          ∃ new, (createDevice p addr block).1.devices = new ++ p.devices.erase o := by
  have horderly := Along.run_inv (fun s a => step_orderly (p := s) (a := a))
    (init_orderly hmax tieBreaker devCapab) hl
  refine ⟨horderly.table, ?_, ?_⟩
  · intro d hd
    have hmem : d ∈ (run step (init cfg tieBreaker devCapab) l).freed :=
      List.mem_filterMap.mpr ⟨_, hd, rfl⟩
    rw [horderly.freed] at hmem
    exact List.not_mem_nil hmem
  · intro p addr block hpos hget hfull
    refine createDevice_evicts hget hfull ?_ block
    exact List.ne_nil_of_length_pos (hpos.trans_le hfull)

/-- The Beacon of a GO with one client, whose address ends in `client`. -/
def sampleGroup (addr : MacAddr) (client : UInt8) : P2pMessage :=
  { sampleBeacon addr with
    groupInfo := some
      [28, 0, 0, 0, 0, 0, client, 0, 0, 0, 0, 0, 0, 0, 0, 0, 0, 0, 0, 0, 0, 0, 0, 0, 0,
        0x10, 0x11, 0, 0] }

theorem peer_table_two :
    Table (run step (init (sampleCfg 0x10 2) false 0)
        [(sampleEnv 1 0, .scanRes 0x20 2412 0 (some (sampleGroup 0x20 0x30)))]) ∧
      MemError.freedInUse 0 ∉ (run step (init (sampleCfg 0x10 2) false 0)
        [(sampleEnv 1 0, .scanRes 0x20 2412 0 (some (sampleGroup 0x20 0x30)))]).errors := by
  have hfit : Fits (init (sampleCfg 0x10 2) false 0)
      (sampleEnv 1 0, .scanRes 0x20 2412 0 (some (sampleGroup 0x20 0x30))) := by
    intro _ own hown
    obtain rfl : 0x20 = own := Option.some.inj hown
    exact ⟨by decide +kernel, fun d hd => absurd hd List.not_mem_nil⟩
  have hl : Along step Fits (init (sampleCfg 0x10 2) false 0)
      [(sampleEnv 1 0, .scanRes 0x20 2412 0 (some (sampleGroup 0x20 0x30)))] := ⟨hfit, trivial⟩
  have h := peer_table (show 0 < (sampleCfg 0x10 2).maxPeers by decide) false 0 hl
  exact ⟨h.1, h.2.1 0⟩

/-- With room for one entry, a client takes the place of the entry of its GO while `p2p_add_device`
works on it. -/
theorem busy_entry_freed :
    MemError.freedInUse 0 ∈ (run step (init (sampleCfg 0x10 1) false 0)
      [(sampleEnv 1 0, .scanRes 0x20 2412 0 (some (sampleGroup 0x20 0x30)))]).errors := by
  decide +kernel

end Hostapd.P2p
