import Hostapd.Ap.PmksaOkc
import Hostapd.Ap.WpaAuthIe

/-!
# Validating the element of an association request

`wpa_validate_wpa_ie` (`wpa_auth_ie.c`) looks at the RSN or WPA element of an association request
and notes in the machine of the station what was negotiated. It notes the key management suite
before it looks at the pairwise ciphers, and the protection of management frames before it looks at
the mobility domain element.

* **`checkSuites`** is the part that only looks at the request; `wpaValidateWpaIe` is the whole
  function. The search of the PMKSA cache may not return, so it is run with fuel and the result is
  `none` when that runs out.
* **`KeepsState`**: what is stored before a refusal is what the machine has anyway.
* **`validate_atomic_iff`**: a refusal leaves the machine alone exactly when `KeepsState` holds.
-/

namespace Hostapd.Ap.WpaIe

open Hostapd.Lib Hostapd.Ft
open Hostapd.Ap.Ft (MfpOptions)
open Hostapd.Ap.Pmksa (PmksaEntry PmksaCache authGet addOkc getOkcBody)

/-! ## The machine of the station -/

/-- Source: `wpa_auth.h`, the results of `wpa_validate_wpa_ie`. -/
inductive WpaIeResult
  | ok | invalidIe | invalidGroup | invalidPairwise | invalidAkmp | allocFail
  | mgmtFrameProtectionViolation | invalidMgmtGroupCipher | invalidMdie | invalidProto
  deriving DecidableEq

/-- What the function reads and writes of the machine of a station; `wpaIe` is `none` for `NULL`.
Source: `wpa_auth_i.h`, `struct wpa_state_machine`. -/
structure StaIe where
  addr : MacAddr
  wpaKeyMgmt : UInt16
  pairwise : UInt16
  wpa : WpaVersion
  mgmtFrameProt : Bool
  pmksa : Option PmksaEntry
  wpaIe : Option Bytes
  wpaIeLen : ℕ
  deriving DecidableEq

/-! ## What the request offers -/

/-- Source: `WPA_CAPABILITY_MFPC`. -/
def capabilityMfpc : UInt16 := 0x0080

/-- A request whose group cipher is the one of the network and that has a key management suite of
the network. -/
structure Offer where
  rsn : Bool
  data : WpaIeData
  keyMgmt : UInt16
  deriving DecidableEq

def selectKeyMgmt (keyMgmt : UInt16) : UInt16 :=
  if keyMgmt &&& keyMgmtFtIeee8021x ≠ 0 then keyMgmtFtIeee8021x
  else if keyMgmt &&& keyMgmtFtPsk ≠ 0 then keyMgmtFtPsk
  else if keyMgmt &&& 0x80 ≠ 0 then 0x80
  else if keyMgmt &&& 0x100 ≠ 0 then 0x100
  else if keyMgmt &&& 0x01 ≠ 0 then 0x01
  else 0x02

/-- The checks in front of the first field that is written. -/
def checkSuites (conf : WpaAuthConfig) (wpaIe : Bytes) : Except WpaIeResult Offer :=
  match wpaIe with
  | [] => .error .invalidIe
  | id :: _ =>
    let rsn : Bool := id = wlanEidRsn
    if conf.wpa &&& (if rsn then wpaProtoRsn else wpaProtoWpa) = 0 then .error .invalidProto
    else
      match if rsn then parseWpaIeRsn wpaIe else parseWpaIeWpa wpaIe with
      | none => .error .invalidIe
      | some data =>
        if data.groupCipher ≠ conf.wpaGroup then .error .invalidGroup
        else
          let keyMgmt := data.keyMgmt &&& conf.wpaKeyMgmt
          if keyMgmt = 0 then .error .invalidAkmp else .ok ⟨rsn, data, selectKeyMgmt keyMgmt⟩

namespace Offer

variable (conf : WpaAuthConfig) (offer : Offer)

def ciphers : UInt16 :=
  offer.data.pairwiseCipher &&& (if offer.rsn then conf.rsnPairwise else conf.wpaPairwise)

/-- The checks of the pairwise ciphers and of management frame protection; `none` when they pass. -/
def checkCiphers : Option WpaIeResult :=
  if offer.ciphers conf = 0 then some .invalidPairwise
  else if conf.ieee80211w = .required then
    if offer.data.capabilities &&& capabilityMfpc = 0 then some .mgmtFrameProtectionViolation
    else if offer.ciphers conf &&& cipherTkip ≠ 0 then some .mgmtFrameProtectionViolation
    else if offer.data.mgmtGroupCipher ≠ cipherAes128Cmac then some .invalidMgmtGroupCipher
    else none
  else none

def mgmtFrameProt : Bool :=
  !(decide (conf.ieee80211w = .no) || offer.data.capabilities &&& capabilityMfpc = 0)

/-- The mobility domain element is the one of the network, or the suite does not need one. -/
def mdieOk (mdie : Option Bytes) : Bool :=
  if offer.keyMgmt &&& (keyMgmtFtPsk ||| keyMgmtFtIeee8021x) ≠ 0 then
    mdie.any fun mdie => 3 ≤ mdie.length ∧ mdie.take 2 = conf.mobilityDomain.toList
  else true

def pairwise : UInt16 :=
  if offer.ciphers conf &&& cipherCcmp ≠ 0 then cipherCcmp else cipherTkip

def wpa : WpaVersion := if offer.rsn then .wpa2 else .wpa

end Offer

/-! ## The search for a cached PMK -/

section Validation

variable (rsnPmkid : Bytes → MacAddr → MacAddr → Bool → Pmkid)

def toPmkid (b : Bytes) : Pmkid := Vector.ofFn fun i => b.getD i 0

/-- The search of the caches of all authenticators, one after the other. Source:
`wpa_auth_okc_iter`. -/
def okcSearch (fuel : ℕ) (aa spa : MacAddr) (pmkid : Pmkid) :
    List PmksaCache → Option (Option PmksaEntry)
  | [] => some none
  | c :: caches =>
    match loop (getOkcBody rsnPmkid aa spa pmkid) fuel c.pmksa with
    | none => none
    | some (some entry) => some (some entry)
    | some none => okcSearch fuel aa spa pmkid caches

/-- The first PMKID for which an authenticator has a key, and the entry that is added for it. -/
def okcLookup (fuel : ℕ) (aa spa : MacAddr) (caches : List PmksaCache) (addr : Option ℕ)
    (c : PmksaCache) : List Pmkid → Option (Option PmksaEntry × PmksaCache)
  | [] => some (none, c)
  | pmkid :: rest =>
    match okcSearch rsnPmkid fuel aa spa pmkid caches with
    | none => none
    | some (some entry) => some (addOkc c addr entry pmkid)
    | some none => okcLookup fuel aa spa caches addr c rest

/-- The outside world of a call: the address of the authenticator, its PMKSA cache, the caches of
all authenticators, the blocks `os_malloc` offers for a cache entry and for the element, and the
number of rounds a search is run for. -/
structure CallEnv where
  aa : MacAddr
  cache : PmksaCache
  caches : List PmksaCache
  entryAddr : Option ℕ
  ieAlloc : Bool
  fuel : ℕ

def findPmksa (conf : WpaAuthConfig) (env : CallEnv) (spa : MacAddr) (pmkids : List Pmkid) :
    Option (Option PmksaEntry × PmksaCache) :=
  match pmkids.findSome? fun pmkid => authGet env.cache (some spa) (some pmkid) with
  | some entry => some (some entry, env.cache)
  | none =>
    if conf.okc then
      okcLookup rsnPmkid env.fuel env.aa spa env.caches env.entryAddr env.cache pmkids
    else some (none, env.cache)

/-! ## The function -/

/-- Keep a copy of the element, in a larger block when it does not fit the one there is. -/
def storeWpaIe (env : CallEnv) (sm : StaIe) (wpaIe : Bytes) : WpaIeResult × StaIe :=
  if (sm.wpaIe = none ∨ sm.wpaIeLen < wpaIe.length) ∧ env.ieAlloc = false then
    (.allocFail, { sm with wpaIe := none })
  else (.ok, { sm with wpaIe := some wpaIe, wpaIeLen := wpaIe.length })

/-- Validate the element of a request: the result, the machine and the cache. `none` stands for a
call that has not returned yet. Source: `wpa_validate_wpa_ie`. -/
def wpaValidateWpaIe (conf : WpaAuthConfig) (env : CallEnv) (sm : StaIe) (wpaIe : Bytes)
    (mdie : Option Bytes) : Option (WpaIeResult × StaIe × PmksaCache) :=
  match checkSuites conf wpaIe with
  | .error res => some (res, sm, env.cache)
  | .ok offer =>
    let sm := { sm with wpaKeyMgmt := offer.keyMgmt }
    match offer.checkCiphers conf with
    | some res => some (res, sm, env.cache)
    | none =>
      let sm := { sm with mgmtFrameProt := offer.mgmtFrameProt conf }
      if offer.mdieOk conf mdie = false then some (.invalidMdie, sm, env.cache)
      else
        let sm := { sm with pairwise := offer.pairwise conf, wpa := offer.wpa }
        match findPmksa rsnPmkid conf env sm.addr (offer.data.pmkids.map toPmkid) with
        | none => none
        | some (pmksa, cache) =>
          let (res, sm) := storeWpaIe env { sm with pmksa := pmksa } wpaIe
          some (res, sm, cache)

/-! ## Refusals -/

/-- What is stored before the request is refused is what the machine has anyway. -/
def KeepsState (conf : WpaAuthConfig) (env : CallEnv) (sm : StaIe) (wpaIe : Bytes)
    (mdie : Option Bytes) : Prop :=
  ∀ offer, checkSuites conf wpaIe = .ok offer →
    if offer.checkCiphers conf ≠ none then sm.wpaKeyMgmt = offer.keyMgmt
    else if offer.mdieOk conf mdie = false then
      sm.wpaKeyMgmt = offer.keyMgmt ∧ sm.mgmtFrameProt = offer.mgmtFrameProt conf
    else if (sm.wpaIe = none ∨ sm.wpaIeLen < wpaIe.length) ∧ env.ieAlloc = false then
      sm.wpaIe = none ∧ sm.wpaKeyMgmt = offer.keyMgmt ∧
        sm.mgmtFrameProt = offer.mgmtFrameProt conf ∧ sm.pairwise = offer.pairwise conf ∧
        sm.wpa = offer.wpa ∧
        ∀ found, findPmksa rsnPmkid conf env sm.addr (offer.data.pmkids.map toPmkid) = some found →
          sm.pmksa = found.1
    else True

theorem checkCiphers_ne_ok (conf : WpaAuthConfig) (offer : Offer) :
    offer.checkCiphers conf ≠ some .ok := by
  unfold Offer.checkCiphers
  split_ifs <;> simp

theorem staIe_ext_iff {sm sm' : StaIe} : sm' = sm ↔ sm'.addr = sm.addr ∧
    sm'.wpaKeyMgmt = sm.wpaKeyMgmt ∧ sm'.pairwise = sm.pairwise ∧ sm'.wpa = sm.wpa ∧
    sm'.mgmtFrameProt = sm.mgmtFrameProt ∧ sm'.pmksa = sm.pmksa ∧ sm'.wpaIe = sm.wpaIe ∧
    sm'.wpaIeLen = sm.wpaIeLen := by
  cases sm
  cases sm'
  simp

/-- A call that returns leaves the machine alone when it refuses the request, exactly when what it
stores before that is there anyway. -/
theorem validate_atomic_iff {conf : WpaAuthConfig} {env : CallEnv} {sm sm' : StaIe}
    {wpaIe : Bytes} {mdie : Option Bytes} {res : WpaIeResult} {cache : PmksaCache}
    (h : wpaValidateWpaIe rsnPmkid conf env sm wpaIe mdie = some (res, sm', cache)) :
    (res ≠ .ok → sm' = sm) ↔ KeepsState rsnPmkid conf env sm wpaIe mdie := by
  unfold wpaValidateWpaIe at h
  unfold KeepsState
  cases hsuites : checkSuites conf wpaIe with
  | error res' =>
    rw [hsuites] at h
    cases h
    exact iff_of_true (fun _ => rfl) fun offer hoffer => by cases hoffer
  | ok offer =>
    rw [hsuites] at h
    dsimp only at h
    simp only [Except.ok.injEq, forall_eq']
    cases hciphers : offer.checkCiphers conf with
    | some res' =>
      rw [hciphers] at h
      cases h
      have hres : res ≠ .ok := by
        rintro rfl
        exact checkCiphers_ne_ok conf offer hciphers
      rw [if_pos (by simp)]
      simp only [ne_eq, hres, not_false_eq_true, true_imp_iff, staIe_ext_iff, and_self, and_true,
        true_and]
      exact eq_comm
    | none =>
      rw [hciphers] at h
      dsimp only at h
      rw [if_neg (by simp)]
      by_cases hmdie : offer.mdieOk conf mdie = false
      · rw [if_pos hmdie] at h ⊢
        cases h
        simp only [ne_eq, reduceCtorEq, not_false_eq_true, true_imp_iff, staIe_ext_iff, and_self,
          and_true, true_and]
        exact and_congr eq_comm eq_comm
      · rw [if_neg hmdie] at h ⊢
        cases hfind : findPmksa rsnPmkid conf env sm.addr (offer.data.pmkids.map toPmkid) with
        | none =>
          rw [hfind] at h
          cases h
        | some found =>
          rw [hfind] at h
          dsimp only [storeWpaIe] at h
          by_cases halloc : (sm.wpaIe = none ∨ sm.wpaIeLen < wpaIe.length) ∧ env.ieAlloc = false
          · rw [if_pos halloc] at h ⊢
            cases h
            simp only [ne_eq, reduceCtorEq, not_false_eq_true, true_imp_iff, staIe_ext_iff,
              Option.some.injEq, forall_eq', true_and, and_true]
            constructor
            · rintro ⟨h₁, h₂, h₃, h₄, h₅, h₆⟩
              exact ⟨h₆.symm, h₁.symm, h₄.symm, h₂.symm, h₃.symm, h₅.symm⟩
            · rintro ⟨h₆, h₁, h₄, h₂, h₃, h₅⟩
              exact ⟨h₁.symm, h₂.symm, h₃.symm, h₄.symm, h₅.symm, h₆.symm⟩
          · rw [if_neg halloc] at h ⊢
            cases h
            exact iff_of_true (fun hres => absurd rfl hres) trivial

end Validation

/-- A network with PSK and CCMP, and the machine of a station that uses it. -/
def pskConfig : WpaAuthConfig where
  wpa := wpaProtoRsn
  wpaKeyMgmt := 0x102
  wpaPairwise := 0
  wpaGroup := cipherCcmp
  rsnPairwise := cipherCcmp
  rsnPreauth := false
  peerkey := false
  wmmEnabled := false
  okc := false
  ieee80211w := .no
  mobilityDomain := Vector.replicate 2 0
  ftOverDs := false

@[inherit_doc pskConfig] def pskStation : StaIe where
  addr := 1
  wpaKeyMgmt := 0x02
  pairwise := cipherCcmp
  wpa := .wpa2
  mgmtFrameProt := false
  pmksa := none
  wpaIe := some (48 :: 20 :: (putLe16 1 ++ (rsnSelector 4 ++ (putLe16 1 ++ (rsnSelector 4 ++
    (putLe16 1 ++ (rsnSelector 2 ++ putLe16 0)))))))
  wpaIeLen := 22

def quietEnv : CallEnv where
  aa := 2
  cache := Pmksa.authInit 0
  caches := []
  entryAddr := none
  ieAlloc := true
  fuel := 1

/-- An element that offers the AKM suite `akm` and TKIP as the pairwise cipher. -/
def tkipElement (akm : UInt8) : Bytes :=
  48 :: 20 :: (putLe16 1 ++ (rsnSelector 4 ++ (putLe16 1 ++ (rsnSelector 2 ++
    (putLe16 1 ++ (rsnSelector akm ++ putLe16 0))))))

def zeroPmkid : Bytes → MacAddr → MacAddr → Bool → Pmkid := fun _ _ _ _ => Vector.replicate 16 0

theorem same_suite_keeps_state :
    KeepsState zeroPmkid pskConfig quietEnv pskStation (tkipElement 2) none := by
  have hcall : wpaValidateWpaIe zeroPmkid pskConfig quietEnv pskStation (tkipElement 2) none =
      some (.invalidPairwise, pskStation, quietEnv.cache) := rfl
  exact (validate_atomic_iff zeroPmkid hcall).mp fun _ => rfl

/-- A request of a station that uses PSK, which asks for PSK-SHA256 and TKIP, is refused because of
the cipher, but the machine of the station now says PSK-SHA256. -/
theorem refused_request_changes_suite :
    ¬ ∀ (conf : WpaAuthConfig) (env : CallEnv) (sm sm' : StaIe) (wpaIe : Bytes)
      (mdie : Option Bytes) (res : WpaIeResult) (cache : PmksaCache),
      wpaValidateWpaIe zeroPmkid conf env sm wpaIe mdie = some (res, sm', cache) →
      res ≠ .ok → sm' = sm := by
  intro h
  have hcall : wpaValidateWpaIe zeroPmkid pskConfig quietEnv pskStation (tkipElement 6) none =
      some (.invalidPairwise, { pskStation with wpaKeyMgmt := 0x100 }, quietEnv.cache) := rfl
  have heq := h _ _ _ _ _ _ _ _ hcall (by decide)
  revert heq
  decide

end Hostapd.Ap.WpaIe
