import Hostapd.Common.Defs
import Hostapd.Lib.KeyOrder
import Hostapd.Lib.Run

/-!
# The supplicant's PMKSA cache

The cache of `rsn_supp/pmksa_cache.c`: one list of entries, one per authenticator, ordered by
expiration, with the pointer `cur_pmksa` of the WPA state machine into it.

* **Entries** (`PmksaEntry`) carry the address of their allocation; a pointer to an entry is that
  address. `PmksaCache` holds the list, the counter, the two timeouts of the cache in the event
  loop, the calls made to the driver, and in `sm` the fields of `struct wpa_sm` it reads.
-/

namespace Hostapd.RsnSupp.Pmksa

open Hostapd.Lib

/-- A cache entry. `addr` is the address of its allocation; `networkCtx` is an identifier that is
only compared, `none` for `NULL`.
Source: `rsn_supp/pmksa_cache.h`, `struct rsn_pmksa_cache_entry`. -/
structure PmksaEntry where
  addr : ℕ
  pmkid : Pmkid
  pmk : Bytes
  expiration : ℤ
  akmp : WpaKeyMgmt
  aa : MacAddr
  reauthTime : ℤ
  networkCtx : Option ℕ
  opportunistic : Bool
  deriving DecidableEq

/-- The fields of `struct wpa_sm` the cache reads and writes. `curPmksa` is a pointer to an
entry. Source: `wpa_i.h`. -/
structure SmData where
  pmk : Bytes
  curPmksa : Option ℕ
  ownAddr : MacAddr
  bssid : MacAddr
  dot11RSNAConfigPMKLifetime : ℕ
  dot11RSNAConfigPMKReauthThreshold : ℕ
  deriving DecidableEq

/-- The calls the cache makes to the driver and to the state machine's owner. -/
inductive DriverCall
  | addPmkid (aa : MacAddr) (pmkid : Pmkid)
  | removePmkid (aa : MacAddr) (pmkid : Pmkid)
  | deauthenticate
  deriving DecidableEq

/-- The cache, with the clock, the times its two timeouts are due, and the calls it has made,
oldest first. Source: `rsn_supp/pmksa_cache.c`, `struct rsn_pmksa_cache`. -/
structure PmksaCache where
  pmksa : List PmksaEntry
  pmksaCount : ℤ
  sm : SmData
  now : ℤ
  expireTimeout : Option ℤ
  reauthTimeout : Option ℤ
  calls : List DriverCall

/-- The largest number of entries.
Source: `rsn_supp/pmksa_cache.c`, `pmksa_cache_max_entries`. -/
def pmksaCacheMaxEntries : ℤ := 32

/-- The empty cache. Source: `pmksa_cache_init`. -/
def init (sm : SmData) (now : ℤ) : PmksaCache where
  pmksa := []
  pmksaCount := 0
  sm := sm
  now := now
  expireTimeout := none
  reauthTimeout := none
  calls := []

/-- The callback on a freed entry: the current entry is dropped, and unless it is being replaced
the PMK is cleared and the network is left. Source: `wpa.c`, `wpa_sm_pmksa_free_cb`. -/
def freeCb (c : PmksaCache) (entry : PmksaEntry) (replace : Bool) : PmksaCache :=
  if c.sm.curPmksa = some entry.addr ∨ c.sm.pmk = entry.pmk then
    if replace then { c with sm := { c.sm with curPmksa := none } }
    else
      { c with
        sm := { c.sm with curPmksa := none, pmk := List.replicate c.sm.pmk.length 0 }
        calls := c.calls ++ [.deauthenticate] }
  else c

/-- Count an entry off that the caller has unlinked, and tell the callback.
Source: `pmksa_cache_free_entry`. -/
def freeEntry (c : PmksaCache) (entry : PmksaEntry) (replace : Bool) : PmksaCache :=
  freeCb { c with pmksaCount := c.pmksaCount - 1 } entry replace

/-- Fetch the first entry that matches; `none` matches any. Source: `pmksa_cache_get`. -/
def get (c : PmksaCache) (aa : Option MacAddr) (pmkid : Option Pmkid) : Option PmksaEntry :=
  c.pmksa.find? fun entry =>
    (aa.all fun a => entry.aa = a) && (pmkid.all fun p => entry.pmkid = p)

/-- Re-register the timeouts: expiry a second after the head expires, and, with a current entry
or one for the current BSS, reauthentication at the reauthentication time of the head.
Source: `pmksa_cache_set_expiration`. -/
def setExpiration (c : PmksaCache) : PmksaCache :=
  match c.pmksa with
  | [] => { c with expireTimeout := none, reauthTimeout := none }
  | head :: _ =>
    let sec := max (head.expiration - c.now) 0
    let current := c.sm.curPmksa.isSome || (get c (some c.sm.bssid) none).isSome
    let reauthSec := max (head.reauthTime - c.now) 0
    { c with
      expireTimeout := some (c.now + (sec + 1))
      reauthTimeout := if current then some (c.now + reauthSec) else none }

/-- The loop of `pmksa_cache_expire`, bounded by the number of entries. -/
def expireLoop : ℕ → PmksaCache → PmksaCache
  | 0, c => c
  | n + 1, c =>
    match c.pmksa with
    | [] => c
    | entry :: rest =>
      if entry.expiration ≤ c.now then
        expireLoop n (freeEntry { c with pmksa := rest } entry false)
      else c

/-- Free the expired entries at the front and re-register the timeouts.
Source: `pmksa_cache_expire`. -/
def expire (c : PmksaCache) : PmksaCache := setExpiration (expireLoop c.pmksa.length c)

/-- Forget the network contexts of all entries. Source: `pmksa_cache_notify_reconfig`. -/
def notifyReconfig (c : PmksaCache) : PmksaCache :=
  { c with pmksa := c.pmksa.map fun entry => { entry with networkCtx := none } }

/-- `os_zalloc` for an entry: `addr` is the block the allocator offers, which is never one that is
in use; `none` is a failed allocation. -/
def zallocEntry (c : PmksaCache) (addr : Option ℕ) : Option ℕ :=
  addr.filter fun a => c.pmksa.all fun e => e.addr ≠ a

section Operations

variable (rsnPmkid : Bytes → MacAddr → MacAddr → Bool → Pmkid)

/-- The entry `pmksa_cache_add` fills in. The reauthentication time is computed in `unsigned int`.
-/
def newEntry (c : PmksaCache) (addr : ℕ) (pmk : Bytes) (aa spa : MacAddr)
    (networkCtx : Option ℕ) (akmp : WpaKeyMgmt) : PmksaEntry where
  addr := addr
  pmkid := rsnPmkid pmk aa spa akmp.sha256
  pmk := pmk
  expiration := c.now + c.sm.dot11RSNAConfigPMKLifetime
  akmp := akmp
  aa := aa
  reauthTime := c.now + ((c.sm.dot11RSNAConfigPMKLifetime *
    c.sm.dot11RSNAConfigPMKReauthThreshold) % 2 ^ 32 / 100 : ℕ)
  networkCtx := networkCtx
  opportunistic := false

/-- Unlink the entry for the same authenticator and free it as one that is being replaced. -/
def replaceOld (c : PmksaCache) (pos : PmksaEntry) : PmksaCache :=
  let c := { c with pmksa := c.pmksa.eraseP fun e => e.aa = pos.aa }
  let c :=
    if c.sm.curPmksa = some pos.addr then { c with sm := { c.sm with curPmksa := none } } else c
  freeEntry c pos true

/-- Remove the oldest entry when the cache is full. -/
def makeRoom (c : PmksaCache) : PmksaCache :=
  match c.pmksa with
  | head :: rest =>
    if c.pmksaCount ≥ pmksaCacheMaxEntries then
      freeEntry
        { c with pmksa := rest, calls := c.calls ++ [.removePmkid head.aa head.pmkid] } head false
    else c
  | [] => c

/-- Link a new entry by its expiration; one that becomes the head re-registers the timeouts. -/
def linkEntry (c : PmksaCache) (entry : PmksaEntry) : PmksaCache :=
  let linked := { c with pmksa := insertByKey PmksaEntry.expiration entry c.pmksa }
  let atHead := c.pmksa.head?.all fun head => entry.expiration < head.expiration
  let armed := if atHead then setExpiration linked else linked
  { armed with
    pmksaCount := armed.pmksaCount + 1
    calls := armed.calls ++ [.addPmkid entry.aa entry.pmkid] }

/-- Add an entry for a new PMK: an entry of the authenticator with the same PMK and PMKID is
reused, any other one is replaced. Source: `pmksa_cache_add`. -/
def add (c : PmksaCache) (addr : Option ℕ) (pmk : Bytes) (aa spa : MacAddr)
    (networkCtx : Option ℕ) (akmp : WpaKeyMgmt) : Option PmksaEntry × PmksaCache :=
  if pmk.length > pmkLen then (none, c)
  else
    match zallocEntry c addr with
    | none => (none, c)
    | some a =>
      let entry := newEntry rsnPmkid c a pmk aa spa networkCtx akmp
      match c.pmksa.find? fun pos => pos.aa = aa with
      | some pos =>
        if pos.pmk = pmk ∧ pos.pmkid = entry.pmkid then (some pos, c)
        else (some entry, linkEntry (makeRoom (replaceOld c pos)) entry)
      | none => (some entry, linkEntry (makeRoom c) entry)

def modifyEntry (c : PmksaCache) (addr : ℕ) (f : PmksaEntry → PmksaEntry) : PmksaCache :=
  { c with pmksa := c.pmksa.map fun e => if e.addr = addr then f e else e }

/-- The expiration read through a pointer: that of the entry linked there, or `stale` when the
entry has been freed. -/
def readExpiration (c : PmksaCache) (addr : ℕ) (stale : ℤ) : ℤ :=
  ((c.pmksa.find? fun e => e.addr = addr).map PmksaEntry.expiration).getD stale

/-- Add the PMK of `oldEntry` for the authenticator `aa`, then give the entry the expiration of
`oldEntry`, wherever in the list the addition has put it. Source: `pmksa_cache_clone_entry`. -/
def cloneEntry (c : PmksaCache) (addr : Option ℕ) (stale : ℤ) (oldEntry : PmksaEntry)
    (aa : MacAddr) : Option ℕ × PmksaCache :=
  match add rsnPmkid c addr oldEntry.pmk aa c.sm.ownAddr oldEntry.networkCtx oldEntry.akmp with
  | (none, c') => (none, c')
  | (some new, c') =>
    let expiration := readExpiration c' oldEntry.addr stale
    (some new.addr,
      modifyEntry c' new.addr fun e => { e with expiration := expiration, opportunistic := true })

/-- Clone the first entry of a network for another authenticator.
Source: `pmksa_cache_get_opportunistic`. -/
def getOpportunistic (c : PmksaCache) (addr : Option ℕ) (stale : ℤ) (networkCtx : Option ℕ)
    (aa : MacAddr) : Option ℕ × PmksaCache :=
  if networkCtx = none then (none, c)
  else
    match c.pmksa.find? fun e => e.networkCtx = networkCtx with
    | some entry => cloneEntry rsnPmkid c addr stale entry aa
    | none => (none, c)

/-- Look the current entry up by PMKID, then by BSSID. -/
def lookupCurrent (c : PmksaCache) (pmkid : Option Pmkid) (bssid : Option MacAddr) : Option ℕ :=
  ((pmkid.bind fun p => get c none (some p)) <|>
    (bssid.bind fun b => get c (some b) none)).map PmksaEntry.addr

/-- Set the current entry: by PMKID, else by BSSID, else, when allowed, opportunistically.
Source: `pmksa_cache_set_current`. -/
def setCurrent (c : PmksaCache) (addr : Option ℕ) (stale : ℤ) (pmkid : Option Pmkid)
    (bssid : Option MacAddr) (networkCtx : Option ℕ) (tryOpportunistic : Bool) : PmksaCache :=
  let c := { c with sm := { c.sm with curPmksa := none } }
  match lookupCurrent c pmkid bssid, tryOpportunistic, bssid with
  | none, true, some b =>
    let (found, c) := getOpportunistic rsnPmkid c addr stale networkCtx b
    { c with sm := { c.sm with curPmksa := found } }
  | found, _, _ => { c with sm := { c.sm with curPmksa := found } }

/-- The operations on a cache. `smChange` is whatever the WPA state machine does to its own
fields between two operations; `advance` is the passing of time. -/
inductive Op
  | add (addr : Option ℕ) (pmk : Bytes) (aa spa : MacAddr) (networkCtx : Option ℕ)
      (akmp : WpaKeyMgmt)
  | getOpportunistic (addr : Option ℕ) (stale : ℤ) (networkCtx : Option ℕ) (aa : MacAddr)
  | setCurrent (addr : Option ℕ) (stale : ℤ) (pmkid : Option Pmkid) (bssid : Option MacAddr)
      (networkCtx : Option ℕ) (tryOpportunistic : Bool)
  | expire
  | notifyReconfig
  | smChange (sm : SmData)
  | advance (dt : ℕ)

def step (c : PmksaCache) : Op → PmksaCache
  | .add addr pmk aa spa networkCtx akmp => (add rsnPmkid c addr pmk aa spa networkCtx akmp).2
  | .getOpportunistic addr stale networkCtx aa =>
    (getOpportunistic rsnPmkid c addr stale networkCtx aa).2
  | .setCurrent addr stale pmkid bssid networkCtx tryOpportunistic =>
    setCurrent rsnPmkid c addr stale pmkid bssid networkCtx tryOpportunistic
  | .expire => expire c
  | .notifyReconfig => notifyReconfig c
  | .smChange sm => { c with sm := sm }
  | .advance dt => { c with now := c.now + dt }

end Operations

end Hostapd.RsnSupp.Pmksa
