import Hostapd.P2p.PeerTable

/-!
# Who is in which group

The two fields of an entry that tell the group of the device, `member_in_go_dev` and
`member_in_go_iface`, and what `p2p_add_device` makes of them when a GO announces its clients.

* **`FollowsGroup`**: what is asked for. The clients of the GO are recorded with it, those that it
  no longer lists are cleared, and nothing else changes.
* **`SameTable`**: two states with the same entries, seen at the same times. The clients change the
  table as `sightAll` does, which knows nothing of groups.
* **`addDevice_follows`**: exactly when the call does what is asked for. The pass that is to clear
  the old clients records *every* entry with the GO, so no entry may be left that is not listed.
-/

namespace Hostapd.P2p

open Hostapd.Lib

open Hostapd.Utils.Eloop (OsTime)

/-- The GO that a device is recorded with: its device address and its interface address. -/
def P2pDevice.group (d : P2pDevice) : MacAddr × MacAddr := (d.memberInGoDev, d.memberInGoIface)

/-- From `p` to `q` the groups of the devices follow what a GO lists. -/
structure FollowsGroup (p q : P2pData) (goDev goIface : MacAddr) (listed : List MacAddr) :
    Prop where
  members : ∀ d ∈ q.devices, q.addr d ∈ listed → (q.mem d).group = (goDev, goIface)
  only : ∀ d ∈ q.devices, (q.mem d).memberInGoIface = goIface → q.addr d ∈ listed
  cleared : ∀ d ∈ q.devices, q.addr d ∉ listed → ∀ e ∈ p.devices, p.addr e = q.addr d →
    (p.mem e).memberInGoIface = goIface → (q.mem d).group = (0, 0)
  others : ∀ d ∈ q.devices, q.addr d ∉ listed → ∀ e ∈ p.devices, p.addr e = q.addr d →
    (p.mem e).memberInGoIface ≠ goIface → (q.mem d).group = (p.mem e).group
  /-- No entry is freed that is used again. -/
  intact : q.freed = p.freed

/-! ## The table without what is known of the devices -/

/-- A device is seen, and has an entry from then on. -/
def sight (p2p : P2pData) (addr : MacAddr) (now : OsTime) (block : Option ℕ) : P2pData :=
  match createDevice p2p addr block with
  | (p2p, none) => p2p
  | (p2p, some dev) => p2p.modify dev fun d => { d with lastSeen := now }

/-- One device after the other is seen, from the one with index `c` on. -/
def sightAll (env : Env) : ℕ → P2pData → List MacAddr → P2pData
  | _, p2p, [] => p2p
  | c, p2p, addr :: addrs =>
    sightAll env (c + 1) (sight p2p addr (env.clock (c + 1)) (env.block (c + 1))) addrs

/-- The table once a GO was seen, whose entry is in use then, and all that it lists. -/
def sightGroup (env : Env) (p2p : P2pData) (goDev : MacAddr) (listed : List MacAddr) : P2pData :=
  match createDevice p2p goDev (env.block 0) with
  | (p2p, none) => p2p
  | (p2p, some dev) =>
    sightAll env 0 (P2pData.modify { p2p with busy := some dev } dev fun d =>
      { d with lastSeen := env.clock 0 }) listed

/-- The entries are the same, and were seen at the same times. -/
structure SameTable (p q : P2pData) : Prop where
  cfg : p.cfg = q.cfg
  devices : p.devices = q.devices
  addr : p.addr = q.addr
  seen : ∀ d, (p.mem d).lastSeen = (q.mem d).lastSeen
  busy : p.busy = q.busy
  freed : p.freed = q.freed

section Tables

variable {p q r : P2pData}

theorem oldestFrom_congr {mem mem' : ℕ → P2pDevice}
    (h : ∀ d, (mem d).lastSeen = (mem' d).lastSeen) (ds : List ℕ) :
    ∀ o, oldestFrom mem o ds = oldestFrom mem' o ds := by
  induction ds with
  | nil =>
    intro o
    cases o <;> rfl
  | cons d ds ih =>
    intro o
    cases o with
    | none => exact ih (some d)
    | some o =>
      simp only [oldestFrom, h d, h o]
      exact ih _

namespace SameTable

theorem of_steady (h : SameTable p q) (hs : Steady p r)
    (htime : ∀ d, (r.mem d).lastSeen = (p.mem d).lastSeen) : SameTable r q where
  cfg := hs.cfg.trans h.cfg
  devices := hs.devices.trans h.devices
  addr := hs.addr.trans h.addr
  seen d := (htime d).trans (h.seen d)
  busy := hs.busy.trans h.busy
  freed := hs.freed.trans h.freed

theorem touch (h : SameTable p q) (dev : ℕ) {now : OsTime} {f g : P2pDevice → P2pDevice}
    (hf : ∀ d, (f d).info.deviceAddr = d.info.deviceAddr) (hfnow : ∀ d, (f d).lastSeen = now)
    (hg : ∀ d, (g d).info.deviceAddr = d.info.deviceAddr) (hgnow : ∀ d, (g d).lastSeen = now) :
    SameTable (p.modify dev f) (q.modify dev g) where
  cfg := h.cfg
  devices := h.devices
  addr :=
    ((Steady.refl p).modify dev f hf).addr.trans
      (h.addr.trans ((Steady.refl q).modify dev g hg).addr.symm)
  seen d := by
    rw [modify_mem, modify_mem]
    split_ifs
    · rw [hfnow, hgnow]
    · exact h.seen d
  busy := h.busy
  freed := h.freed

theorem getDevice (h : SameTable p q) (addr : MacAddr) : p.getDevice addr = q.getDevice addr := by
  change p.devices.find? (fun d => p.addr d = addr) = q.devices.find? fun d => q.addr d = addr
  rw [h.devices, h.addr]

theorem oldest (h : SameTable p q) : P2p.oldest p = P2p.oldest q := by
  unfold P2p.oldest
  rw [oldestFrom_congr h.seen, h.devices]

theorem removeDevice (h : SameTable p q) (dev : ℕ) :
    SameTable (P2p.removeDevice p dev) (P2p.removeDevice q dev) where
  cfg := h.cfg
  devices := congrArg (fun l : List ℕ => l.erase dev) h.devices
  addr := h.addr
  seen := h.seen
  busy := h.busy
  freed := by rw [removeDevice_freed, removeDevice_freed, h.freed, h.busy]

theorem makeRoom (h : SameTable p q) : SameTable (P2p.makeRoom p) (P2p.makeRoom q) := by
  unfold P2p.makeRoom
  rw [h.devices, h.cfg, h.oldest]
  split_ifs
  · cases P2p.oldest q with
    | none => exact h
    | some o => exact h.removeDevice o
  · exact h

theorem enter (h : SameTable p q) (dev : ℕ) (addr : MacAddr) :
    SameTable { p with mem := Function.update p.mem dev (.zero addr), devices := dev :: p.devices }
      { q with mem := Function.update q.mem dev (.zero addr), devices := dev :: q.devices } where
  cfg := h.cfg
  devices := congrArg (dev :: ·) h.devices
  addr := by
    funext d
    by_cases heq : d = dev
    · simp [P2pData.addr, heq]
    · simpa [P2pData.addr, Function.update_of_ne heq] using congrFun h.addr d
  seen d := by
    by_cases heq : d = dev
    · simp [heq]
    · simpa [Function.update_of_ne heq] using h.seen d
  busy := h.busy
  freed := h.freed

theorem createDevice (h : SameTable p q) (addr : MacAddr) (block : Option ℕ) :
    SameTable (createDevice p addr block).1 (createDevice q addr block).1 ∧
      (P2p.createDevice p addr block).2 = (P2p.createDevice q addr block).2 := by
  have hroom := h.makeRoom
  unfold P2p.createDevice zallocDevice
  rw [h.getDevice addr]
  cases q.getDevice addr with
  | some dev => exact ⟨h, rfl⟩
  | none =>
    dsimp only
    rw [hroom.devices]
    cases block.filter fun b => b ∉ (P2p.makeRoom q).devices with
    | none => exact ⟨hroom, rfl⟩
    | some b =>
      have henter := hroom.enter b addr
      rw [hroom.devices] at henter
      exact ⟨henter, rfl⟩

end SameTable

theorem createDevice_of_getDevice {addr : MacAddr} {dev : ℕ} (h : p.getDevice addr = some dev)
    (block : Option ℕ) : createDevice p addr block = (p, some dev) := by
  unfold createDevice
  rw [h]

theorem SameTable.addGroupClient (h : SameTable p q) (goDev goIface : MacAddr) (freq : ℤ)
    (cli : ClientInfo) (now : OsTime) (block : Option ℕ) :
    SameTable (addGroupClient p goDev goIface freq cli now block)
      (sight q cli.deviceAddr now block) := by
  obtain ⟨hcreate, hdev⟩ := h.createDevice cli.deviceAddr block
  unfold P2p.addGroupClient sight
  cases hget : p.getDevice cli.deviceAddr with
  | some dev =>
    have hget' : q.getDevice cli.deviceAddr = some dev := (h.getDevice _).symm.trans hget
    rw [createDevice_of_getDevice hget']
    have hupdate := h.of_steady (updateClient_aside dev cli).steady
      fun d => updateClient_lastSeen dev d cli
    exact hupdate.touch dev (fun _ => rfl) (fun _ => rfl) (fun _ => rfl) (fun _ => rfl)
  | none =>
    dsimp only
    cases hp : P2p.createDevice p cli.deviceAddr block with
    | mk p' o =>
      cases hq : P2p.createDevice q cli.deviceAddr block with
      | mk q' o' =>
        rw [hp, hq] at hcreate hdev
        obtain rfl : o = o' := hdev
        cases o with
        | none => exact hcreate
        | some dev =>
          have hnew := hcreate.of_steady (newClient_aside dev cli freq).steady
            fun d => newClient_lastSeen dev d cli freq
          exact hnew.touch dev (fun _ => rfl) (fun _ => rfl) (fun _ => rfl) (fun _ => rfl)

theorem SameTable.addGroupClientsFrom {env : Env} (h : SameTable p q) (goDev goIface : MacAddr)
    (freq : ℤ) (clients : List ClientInfo) (c : ℕ) :
    SameTable (addGroupClientsFrom env goDev goIface freq c p clients)
      (sightAll env c q (clients.map ClientInfo.deviceAddr)) := by
  induction clients generalizing p q c with
  | nil => exact h
  | cons cli clients ih =>
    exact ih (h.addGroupClient goDev goIface freq cli (env.clock (c + 1)) (env.block (c + 1)))
      (c + 1)

end Tables

/-! ## What is recorded -/

section Records

variable {p q : P2pData}

theorem copyClientInfo_group (d e : ℕ) (cli : ClientInfo) :
    ((copyClientInfo p d cli).mem e).group = (p.mem e).group := by
  by_cases heq : e = d
  · simp [copyClientInfo, fault_mem, modify_mem, heq, P2pDevice.group]
  · simp [copyClientInfo, fault_mem, modify_mem, heq]

theorem setFlags_group (d e : ℕ) (f : DevFlags → DevFlags) :
    ((p.setFlags d f).mem e).group = (p.mem e).group := by
  rw [setFlags_mem]
  split_ifs with heq
  · rw [heq]
    rfl
  · rfl

theorem updateClient_group (d e : ℕ) (cli : ClientInfo) :
    ((updateClient p d cli).mem e).group = (p.mem e).group := by
  unfold updateClient
  dsimp only
  rw [setFlags_group]
  split_ifs
  · exact copyClientInfo_group d e cli
  · rfl

theorem newClient_group {d e : ℕ} (hne : e ≠ d) (cli : ClientInfo) (freq : ℤ) :
    ((newClient p d cli freq).mem e).group = (p.mem e).group := by
  simp [newClient, setFlags_mem, emit_mem, modify_mem, copyClientInfo_group, hne]

theorem reportDevice_group (dev e : ℕ) (addr : MacAddr) :
    ((reportDevice p dev addr).mem e).group = (p.mem e).group := by
  have hsd : ((if pendingSdReq p dev = true then
      p.setFlags dev fun f => { f with sdSchedule := true } else p).mem e).group =
        (p.mem e).group := by
    split_ifs
    · exact setFlags_group dev e _
    · rfl
  unfold reportDevice
  dsimp only
  generalize (if pendingSdReq p dev = true then
    p.setFlags dev fun f => { f with sdSchedule := true } else p) = q at hsd ⊢
  split_ifs
  · exact hsd
  · exact hsd
  · rw [setFlags_group, emit_mem]
    exact hsd

/-- All devices in the table are recorded at the interface of the GO, and those that were seen in
its list with the GO itself. -/
structure Recorded (p : P2pData) (goDev goIface : MacAddr) (done : List MacAddr) : Prop where
  table : Table p
  iface : ∀ d ∈ p.devices, (p.mem d).memberInGoIface = goIface
  dev : ∀ d ∈ p.devices, p.addr d ∈ done → (p.mem d).memberInGoDev = goDev

variable {goDev goIface : MacAddr} {done : List MacAddr}

theorem Recorded.of_steady (h : Recorded p goDev goIface done) (hs : Steady p q)
    (hgroup : ∀ d, (q.mem d).group = (p.mem d).group) : Recorded q goDev goIface done where
  table := (hs.turns h.table).table
  iface d hd := by
    have hsame : (q.mem d).memberInGoIface = (p.mem d).memberInGoIface :=
      congrArg Prod.snd (hgroup d)
    exact hsame.trans (h.iface d (hs.devices ▸ hd))
  dev d hd hdone := by
    have hsame : (q.mem d).memberInGoDev = (p.mem d).memberInGoDev :=
      congrArg Prod.fst (hgroup d)
    exact hsame.trans (h.dev d (hs.devices ▸ hd) (hs.addr ▸ hdone))

theorem createDevice_kept {addr : MacAddr} {block : Option ℕ} {d : ℕ}
    (hd : d ∈ (createDevice p addr block).1.devices)
    (hne : (createDevice p addr block).2 ≠ some d) :
    d ∈ p.devices ∧ (createDevice p addr block).1.mem d = p.mem d := by
  cases hdev : (createDevice p addr block).2 with
  | some dev =>
    rw [hdev] at hne
    exact (createDevice_spec hdev).2.2 d hd fun heq => hne (congrArg some heq.symm)
  | none =>
    unfold createDevice at hd hdev ⊢
    cases hget : p.getDevice addr with
    | some dev => simp [hget] at hdev
    | none =>
      rw [hget] at hd hdev
      dsimp only at hd hdev ⊢
      cases hz : zallocDevice (makeRoom p) block with
      | some b => simp [hz] at hdev
      | none =>
        rw [hz] at hd
        exact ⟨makeRoom_subset hd, congrFun makeRoom_mem d⟩

/-- The entry `dev` of a client is written, behind a change that keeps the groups of the others. -/
theorem recorded_of_written {dev : ℕ} {cli : ClientInfo} {now : OsTime} (ht : Table q)
    (hdev : dev ∈ q.devices) (haddr : q.addr dev = cli.deviceAddr)
    (hothers : ∀ d ∈ q.devices, d ≠ dev → (q.mem d).memberInGoIface = goIface ∧
      (q.addr d ∈ done → (q.mem d).memberInGoDev = goDev)) :
    Recorded (q.modify dev (seenInGroup goDev goIface cli.interfaceAddr now)) goDev goIface
      (cli.deviceAddr :: done) := by
  have hs : Steady q (q.modify dev (seenInGroup goDev goIface cli.interfaceAddr now)) :=
    (Steady.refl q).modify dev _ fun _ => rfl
  refine ⟨(hs.turns ht).table, ?_, ?_⟩
  · intro d hd
    by_cases heq : d = dev
    · simp [modify_mem, heq, seenInGroup]
    · rw [modify_mem, if_neg heq]
      exact (hothers d hd heq).1
  · intro d hd hdone
    by_cases heq : d = dev
    · simp [modify_mem, heq, seenInGroup]
    · rw [hs.addr] at hdone
      have hother : q.addr d ≠ cli.deviceAddr := by
        intro hsame
        exact heq (ht.distinct d hd dev hdev (hsame.trans haddr.symm))
      rw [modify_mem, if_neg heq]
      exact (hothers d hd heq).2 ((List.mem_cons.mp hdone).resolve_left hother)

theorem Recorded.addGroupClient (h : Recorded p goDev goIface done) (freq : ℤ) (cli : ClientInfo)
    (now : OsTime) (block : Option ℕ) :
    Recorded (addGroupClient p goDev goIface freq cli now block) goDev goIface
      (cli.deviceAddr :: done) := by
  unfold P2p.addGroupClient
  cases hget : p.getDevice cli.deviceAddr with
  | some dev =>
    have hs : Steady p (updateClient p dev cli) := (updateClient_aside dev cli).steady
    have hupdate := h.of_steady hs fun d => updateClient_group dev d cli
    refine recorded_of_written hupdate.table ?_ ?_ ?_
    · rw [hs.devices]
      exact getDevice_mem hget
    · rw [hs.addr]
      exact addr_of_getDevice hget
    · exact fun d hd _ => ⟨hupdate.iface d hd, hupdate.dev d hd⟩
  | none =>
    have hturns := createDevice_turns h.table cli.deviceAddr block
    have hne := addr_ne_of_getDevice hget
    dsimp only
    cases hc : createDevice p cli.deviceAddr block with
    | mk q o =>
      rw [hc] at hturns
      have hkept : ∀ d ∈ q.devices, o ≠ some d → d ∈ p.devices ∧ q.mem d = p.mem d := by
        intro d hd hnew
        have hd' : d ∈ (createDevice p cli.deviceAddr block).1.devices := by
          rw [hc]
          exact hd
        have hnew' : (createDevice p cli.deviceAddr block).2 ≠ some d := by
          rw [hc]
          exact hnew
        have hsame := createDevice_kept hd' hnew'
        rw [hc] at hsame
        exact hsame
      have hold : ∀ d ∈ q.devices, o ≠ some d → (q.mem d).memberInGoIface = goIface ∧
          (q.addr d ∈ done → (q.mem d).memberInGoDev = goDev) := by
        intro d hd hnew
        obtain ⟨hmem, hsame⟩ := hkept d hd hnew
        unfold P2pData.addr
        rw [hsame]
        exact ⟨h.iface d hmem, h.dev d hmem⟩
      cases o with
      | none =>
        refine ⟨hturns.table, fun d hd => (hold d hd nofun).1, ?_⟩
        intro d hd hdone
        obtain ⟨hmem, hsame⟩ := hkept d hd nofun
        have hother : q.addr d ≠ cli.deviceAddr := by
          unfold P2pData.addr
          rw [hsame]
          exact hne d hmem
        exact (hold d hd nofun).2 ((List.mem_cons.mp hdone).resolve_left hother)
      | some dev =>
        have hspec := createDevice_spec (congrArg Prod.snd hc)
        rw [hc] at hspec
        have hs : Steady q (newClient q dev cli freq) := (newClient_aside dev cli freq).steady
        refine recorded_of_written (hs.turns hturns.table).table ?_ ?_ ?_
        · rw [hs.devices]
          exact hspec.1
        · rw [hs.addr]
          exact hspec.2.1
        · intro d hd hned
          have hgroup : ((newClient q dev cli freq).mem d).group = (q.mem d).group :=
            newClient_group hned cli freq
          have hbefore := hold d (hs.devices ▸ hd) fun heq => hned (Option.some.inj heq).symm
          rw [hs.addr]
          exact ⟨(congrArg Prod.snd hgroup).trans hbefore.1,
            fun hdone => (congrArg Prod.fst hgroup).trans (hbefore.2 hdone)⟩

theorem Recorded.addGroupClientsFrom {env : Env} (h : Recorded p goDev goIface done) (freq : ℤ)
    (clients : List ClientInfo) (c : ℕ) :
    Recorded (addGroupClientsFrom env goDev goIface freq c p clients) goDev goIface
      ((clients.map ClientInfo.deviceAddr).reverse ++ done) := by
  induction clients generalizing p done c with
  | nil => exact h
  | cons cli clients ih =>
    have hone := h.addGroupClient freq cli (env.clock (c + 1)) (env.block (c + 1))
    have hall := ih hone (c + 1)
    rw [List.map_cons, List.reverse_cons, List.append_assoc]
    exact hall

theorem foldl_memberInGoIface (iface : MacAddr) (devs : List ℕ) (e : ℕ) :
    ((devs.foldl (fun q d => q.modify d fun x => { x with memberInGoIface := iface }) p).mem
      e).memberInGoIface = if e ∈ devs then iface else (p.mem e).memberInGoIface := by
  induction devs generalizing p with
  | nil => simp
  | cons d devs ih =>
    refine ih.trans ?_
    by_cases hmem : e ∈ devs
    · simp [hmem]
    · by_cases heq : e = d
      · simp [heq, modify_mem]
      · simp [hmem, heq, modify_mem]

theorem addGroupClients_recorded (ht : Table p) (hsame : SameTable p q) (env : Env)
    (goDev goIface : MacAddr) (freq : ℤ) {gi : Bytes} {clients : List ClientInfo}
    (hclients : (groupInfoParse maxGroupEntries gi).1 = some clients) :
    Recorded (addGroupClients env p goDev goIface freq (some gi)) goDev goIface
        ((clients.map ClientInfo.deviceAddr).reverse ++ []) ∧
      SameTable (addGroupClients env p goDev goIface freq (some gi))
        (sightAll env 0 q (clients.map ClientInfo.deviceAddr)) := by
  have hread : Aside p (p.fault (groupInfoParse maxGroupEntries gi).2 .overread) :=
    (Aside.refl p).fault _ _ rfl
  have hsame' := hsame.of_steady hread.steady fun _ => rfl
  unfold addGroupClients
  dsimp only
  rw [hclients]
  generalize p.fault (groupInfoParse maxGroupEntries gi).2 .overread = r at hread hsame' ⊢
  dsimp only
  have hpass := foldl_memberInGoIface_aside (p := r) goIface r.devices
  have hturns := (hread.trans hpass).steady.turns ht
  refine ⟨Recorded.addGroupClientsFrom ⟨hturns.table, ?_, ?_⟩ freq clients 0, ?_⟩
  · intro d hd
    rw [hpass.devices] at hd
    rw [foldl_memberInGoIface, if_pos hd]
  · exact fun d _ hdone => absurd hdone List.not_mem_nil
  · have htable := hsame'.of_steady hpass.steady
      fun d => foldl_memberInGoIface_lastSeen goIface r.devices d
    exact htable.addGroupClientsFrom goDev goIface freq clients 0

theorem addDevice_taken (env : Env) (addr : MacAddr) (freq level : ℤ) {msg : P2pMessage}
    {goDev : MacAddr} (hown : msg.deviceAddr = some goDev)
    (hfilter : p.peerFilter = 0 ∨ goDev = p.peerFilter) {dev : ℕ}
    (hcreate : createDevice p goDev (env.block 0) = (q, some dev)) :
    (addDevice env p addr freq level (some msg)).1 =
      { reportDevice (addGroupClients env
          (fillDevice env { q with busy := some dev } dev addr goDev freq level msg) goDev addr
          (dsFreq freq msg.dsParams) msg.groupInfo) dev addr with busy := none } := by
  have hpass : ¬ (p.peerFilter ≠ 0 ∧ goDev ≠ p.peerFilter) := by tauto
  unfold addDevice
  simp only [hown, if_neg hpass, hcreate]

theorem fillDevice_sameTable (env : Env) (dev : ℕ) (addr devAddr : MacAddr) (freq level : ℤ)
    (msg : P2pMessage) : SameTable (fillDevice env p dev addr devAddr freq level msg)
      (p.modify dev fun d => { d with lastSeen := env.clock 0 }) := by
  have hfill : Steady p _ := (fillDevice_aside env dev addr devAddr freq level msg).steady
  have hseen : Steady p (p.modify dev fun d => { d with lastSeen := env.clock 0 }) :=
    (Steady.refl p).modify dev _ fun _ => rfl
  refine ⟨hfill.cfg.trans hseen.cfg.symm, hfill.devices, hfill.addr.trans hseen.addr.symm, ?_,
    hfill.busy, hfill.freed⟩
  intro d
  rw [fillDevice_lastSeen, modify_mem]
  split_ifs <;> rfl

theorem addDevice_recorded (ht : Table p) (env : Env) (addr : MacAddr) (freq level : ℤ)
    {msg : P2pMessage} {goDev : MacAddr} {gi : Bytes} {clients : List ClientInfo}
    (hown : msg.deviceAddr = some goDev) (hfilter : p.peerFilter = 0 ∨ goDev = p.peerFilter)
    (hentry : (createDevice p goDev (env.block 0)).2.isSome) (hgi : msg.groupInfo = some gi)
    (hclients : (groupInfoParse maxGroupEntries gi).1 = some clients) :
    Recorded (addDevice env p addr freq level (some msg)).1 goDev addr
        ((clients.map ClientInfo.deviceAddr).reverse ++ []) ∧
      (addDevice env p addr freq level (some msg)).1.devices =
        (sightGroup env p goDev (clients.map ClientInfo.deviceAddr)).devices ∧
      (addDevice env p addr freq level (some msg)).1.addr =
        (sightGroup env p goDev (clients.map ClientInfo.deviceAddr)).addr ∧
      (addDevice env p addr freq level (some msg)).1.freed =
        (sightGroup env p goDev (clients.map ClientInfo.deviceAddr)).freed := by
  have hcreate := createDevice_turns ht goDev (env.block 0)
  obtain ⟨dev, hdev⟩ := Option.isSome_iff_exists.mp hentry
  cases hc : createDevice p goDev (env.block 0) with
  | mk q o =>
    rw [hc] at hdev hcreate
    obtain rfl : o = some dev := hdev
    have hsight : sightGroup env p goDev (clients.map ClientInfo.deviceAddr) =
        sightAll env 0 (P2pData.modify { q with busy := some dev } dev fun d =>
          { d with lastSeen := env.clock 0 }) (clients.map ClientInfo.deviceAddr) := by
      unfold sightGroup
      rw [hc]
    rw [addDevice_taken env addr freq level hown hfilter hc, hsight, hgi]
    have hfill : Steady { q with busy := some dev } _ :=
      (fillDevice_aside env dev addr goDev freq level msg).steady
    have hfilled := (hfill.turns (hcreate.table.use (some dev))).table
    obtain ⟨hrecorded, hsame⟩ := addGroupClients_recorded hfilled
      (fillDevice_sameTable env dev addr goDev freq level msg) env goDev addr
      (dsFreq freq msg.dsParams) hclients
    generalize addGroupClients env
      (fillDevice env { q with busy := some dev } dev addr goDev freq level msg) goDev addr
      (dsFreq freq msg.dsParams) (some gi) = r at hrecorded hsame ⊢
    have hreport : Steady r (reportDevice r dev addr) := (reportDevice_aside dev addr).steady
    have hreported := hrecorded.of_steady hreport fun d => reportDevice_group dev d addr
    refine ⟨⟨hreported.table.use none, hreported.iface, hreported.dev⟩, ?_, ?_, ?_⟩
    · exact hreport.devices.trans hsame.devices
    · exact hreport.addr.trans hsame.addr
    · exact hreport.freed.trans hsame.freed

end Records

/-! ## When the groups follow -/

/-- **Group membership.** A message of a GO whose entry can be made, with a Group Info that can be
parsed, makes the groups of the devices follow it exactly if every entry that is left in the table
is listed there, the own entry of the GO included, and this own entry is not among those that are
removed to make room. -/
theorem addDevice_follows {p : P2pData} (ht : Table p) (env : Env) (addr : MacAddr)
    (freq level : ℤ) {msg : P2pMessage} {goDev : MacAddr} {gi : Bytes} {clients : List ClientInfo}
    (hown : msg.deviceAddr = some goDev) (hfilter : p.peerFilter = 0 ∨ goDev = p.peerFilter)
    (hentry : (createDevice p goDev (env.block 0)).2.isSome) (hgi : msg.groupInfo = some gi)
    (hclients : (groupInfoParse maxGroupEntries gi).1 = some clients) :
    FollowsGroup p (addDevice env p addr freq level (some msg)).1 goDev addr
        (clients.map ClientInfo.deviceAddr) ↔
      (sightGroup env p goDev (clients.map ClientInfo.deviceAddr)).freed = p.freed ∧
        ∀ d ∈ (sightGroup env p goDev (clients.map ClientInfo.deviceAddr)).devices,
          (sightGroup env p goDev (clients.map ClientInfo.deviceAddr)).addr d ∈
            clients.map ClientInfo.deviceAddr := by
  obtain ⟨hrecorded, hdevices, haddr, hfreed⟩ :=
    addDevice_recorded ht env addr freq level hown hfilter hentry hgi hclients
  rw [← hdevices, ← haddr, ← hfreed]
  constructor
  · intro h
    exact ⟨h.intact, fun d hd => h.only d hd (hrecorded.iface d hd)⟩
  · rintro ⟨hintact, hall⟩
    refine ⟨?_, fun d hd _ => hall d hd, ?_, ?_, hintact⟩
    · intro d hd hlisted
      have hdone : (addDevice env p addr freq level (some msg)).1.addr d ∈
          (clients.map ClientInfo.deviceAddr).reverse ++ [] := by
        simpa using hlisted
      exact Prod.ext (hrecorded.dev d hd hdone) (hrecorded.iface d hd)
    · exact fun d hd hnot => absurd (hall d hd) hnot
    · exact fun d hd hnot => absurd (hall d hd) hnot

/-- The table with the GO 0x20 and the device 0x30, which is a client of it. -/
def sampleOneGroup : P2pData :=
  run step (init (sampleCfg 0x10 9) false 0)
    [(sampleEnv 1 0, .scanRes 0x20 2412 0 (some (sampleGroup 0x20 0x30)))]

/-- Another GO, 0x40, announces its only client, 0x50. The device 0x30 is recorded at the interface
of this GO from then on, with the device address of the first one; so are both GOs. -/
theorem other_group_taken_over :
    ¬ FollowsGroup sampleOneGroup
        (addDevice (sampleEnv 2 2) sampleOneGroup 0x40 2412 0 (some (sampleGroup 0x40 0x50))).1
        0x40 0x40 [0x50] ∧
      ((addDevice (sampleEnv 2 2) sampleOneGroup 0x40 2412 0
        (some (sampleGroup 0x40 0x50))).1.mem 1).group = (0x20, 0x40) := by
  refine ⟨?_, by decide +kernel⟩
  intro h
  have hlisted := h.only 1 (by decide +kernel) (by decide +kernel)
  exact absurd hlisted (by decide +kernel)

theorem addDevice_follows_two :
    FollowsGroup (init (sampleCfg 0x10 9) false 0)
      (addDevice (sampleEnv 1 0) (init (sampleCfg 0x10 9) false 0) 0x20 2412 0
        (some (sampleGroup 0x20 0x20))).1 0x20 0x20 [0x20] := by
  have ht : Table (init (sampleCfg 0x10 9) false 0) := (init_orderly (by decide) false 0).table
  have hown : (sampleGroup 0x20 0x20).deviceAddr = some 0x20 := rfl
  have hclients : (groupInfoParse maxGroupEntries ((sampleGroup 0x20 0x20).groupInfo.getD [])).1 =
      some [⟨0x20, 0, 0, 0, [0, 0, 0, 0, 0, 0, 0, 0], 0, [], []⟩] := by
    decide +kernel
  exact (addDevice_follows ht (sampleEnv 1 0) 0x20 2412 0 hown (.inl rfl) (by decide +kernel) rfl
    hclients).mpr ⟨by decide +kernel, by decide +kernel⟩

end Hostapd.P2p
