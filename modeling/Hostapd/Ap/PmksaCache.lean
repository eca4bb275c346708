import Hostapd.Common.Defs
import Hostapd.Lib.KeyOrder
import Hostapd.Lib.Run

/-!
# The authenticator's PMKSA cache

The cache of `pmksa_cache_auth.c`: the same entries linked twice, in one list ordered by
expiration and in 128 chains by the first octet of the PMKID.

* **Entries** (`PmksaEntry`) carry the address of their allocation, so that the pointer
  comparisons of the source are comparisons of `addr`; `PmksaCache` holds both linkages, the
  counter `pmksaCount` and the trace of `free_cb` calls. Entries are not written after they are
  linked, so both linkages hold them by value.
* **The event loop** keeps the one `pmksa_cache_expire` timeout of the cache in `timeout`.
-/

namespace Hostapd.Ap.Pmksa

open Hostapd.Lib

/-- The number of hash chains. Source: `pmksa_cache_auth.c`, `PMKID_HASH_SIZE`. -/
def pmkidHashSize : ℕ := 128

/-- The chain of a PMKID: the low seven bits of its first octet.
Source: `pmksa_cache_auth.c`, `PMKID_HASH`. -/
def pmkidHash (pmkid : Pmkid) : Fin pmkidHashSize :=
  ⟨pmkid[0].toNat &&& 0x7f, Nat.lt_succ_of_le Nat.and_le_right⟩

/-- What the cache keeps of an EAPOL state machine: `eapol->identity`, `radius_class`,
`eap_type_authsrv` and the `vlan_id` of its station. -/
structure EapolData where
  identity : Option Bytes
  radiusClass : List Bytes
  eapTypeAuthsrv : UInt8
  vlanId : ℤ
  deriving DecidableEq

/-- A cache entry. `addr` is the address of its allocation, the value its pointers have; `pmk`
holds the `pmk_len` octets of the key.
Source: `pmksa_cache_auth.h`, `struct rsn_pmksa_cache_entry`. -/
structure PmksaEntry where
  addr : ℕ
  pmkid : Pmkid
  pmk : Bytes
  expiration : ℤ
  akmp : WpaKeyMgmt
  spa : MacAddr
  identity : Option Bytes
  radiusClass : List Bytes
  eapTypeAuthsrv : UInt8
  vlanId : ℤ
  opportunistic : Bool
  deriving DecidableEq

/-- The cache, with the clock and the event loop's timeout for it. `pmksa` is the list through
`next`, `pmkid h` the chain through `hnext`, `freed` the entries handed to `free_cb`, oldest
first, `timeout` the time the registered `pmksa_cache_expire` is due.
Source: `pmksa_cache_auth.c`, `struct rsn_pmksa_cache`. -/
structure PmksaCache where
  pmkid : Fin pmkidHashSize → List PmksaEntry
  pmksa : List PmksaEntry
  pmksaCount : ℤ
  freed : List PmksaEntry
  now : ℤ
  timeout : Option ℤ

/-- The largest number of entries. Source: `pmksa_cache_auth.c`, `pmksa_cache_max_entries`. -/
def pmksaCacheMaxEntries : ℤ := 1024

/-- The default lifetime in seconds. Source: `pmksa_cache_auth.c`,
`dot11RSNAConfigPMKLifetime`. -/
def dot11RSNAConfigPMKLifetime : ℤ := 43200

/-- The empty cache. Source: `pmksa_cache_auth_init`. -/
def authInit (now : ℤ) : PmksaCache where
  pmkid := fun _ => []
  pmksa := []
  pmksaCount := 0
  freed := []
  now := now
  timeout := none

/-- Unlink the first element of a list with the address of `entry`, as the two search loops of
`pmksa_cache_free_entry` do. -/
def unlink (entry : PmksaEntry) (l : List PmksaEntry) : List PmksaEntry :=
  l.eraseP fun pos => pos.addr = entry.addr

/-- Count the entry off, tell `free_cb`, and unlink the entry from its chain and from the list.
Source: `pmksa_cache_free_entry`. -/
def freeEntry (c : PmksaCache) (entry : PmksaEntry) : PmksaCache :=
  { c with
    pmksaCount := c.pmksaCount - 1
    freed := c.freed ++ [entry]
    pmkid := Function.update c.pmkid (pmkidHash entry.pmkid)
      (unlink entry (c.pmkid (pmkidHash entry.pmkid)))
    pmksa := unlink entry c.pmksa }

/-- Re-register the timeout for one second after the head expires; an empty cache has none.
Source: `pmksa_cache_set_expiration`. -/
def setExpiration (c : PmksaCache) : PmksaCache :=
  match c.pmksa with
  | [] => { c with timeout := none }
  | head :: _ =>
    let sec := max (head.expiration - c.now) 0
    { c with timeout := some (c.now + (sec + 1)) }

/-- The loop of `pmksa_cache_expire`, bounded by the number of entries it can free: the head is
unlinked before `pmksa_cache_free_entry` looks for it in the rest once more. -/
def expireLoop : ℕ → PmksaCache → PmksaCache
  | 0, c => c
  | n + 1, c =>
    match c.pmksa with
    | [] => c
    | entry :: rest =>
      if entry.expiration ≤ c.now then expireLoop n (freeEntry { c with pmksa := rest } entry)
      else c

/-- Free the expired entries at the front and register the next timeout.
Source: `pmksa_cache_expire`. -/
def expire (c : PmksaCache) : PmksaCache := setExpiration (expireLoop c.pmksa.length c)

/-- Link an entry into the list in front of the first one that expires strictly later, and at
the head of its chain. Source: `pmksa_cache_link_entry`. -/
def linkEntry (c : PmksaCache) (entry : PmksaEntry) : PmksaCache :=
  { c with
    pmksa := insertByKey PmksaEntry.expiration entry c.pmksa
    pmkid := Function.update c.pmkid (pmkidHash entry.pmkid)
      (entry :: c.pmkid (pmkidHash entry.pmkid))
    pmksaCount := c.pmksaCount + 1 }

/-- Fetch the first entry that matches: along the chain of the PMKID when one is given, along the
list otherwise; `none` matches any. Source: `pmksa_cache_auth_get`. -/
def authGet (c : PmksaCache) (spa : Option MacAddr) (pmkid : Option Pmkid) : Option PmksaEntry :=
  (match pmkid with
    | some p => c.pmkid (pmkidHash p)
    | none => c.pmksa).find? fun entry =>
      (spa.all fun a => entry.spa = a) && (pmkid.all fun p => entry.pmkid = p)

/-- `os_zalloc` for an entry: `addr` is the block the allocator offers, which is never one that is
in use; `none` is a failed allocation. -/
def zallocEntry (c : PmksaCache) (addr : Option ℕ) : Option ℕ :=
  addr.filter fun a => c.pmksa.all fun e => e.addr ≠ a

section Operations

variable (rsnPmkid : Bytes → MacAddr → MacAddr → Bool → Pmkid)

/-- The entry `pmksa_cache_auth_add` fills in, with `pmksa_cache_from_eapol_data`. -/
def newEntry (addr : ℕ) (now : ℤ) (pmk : Bytes) (aa spa : MacAddr) (sessionTimeout : ℤ)
    (eapol : Option EapolData) (akmp : WpaKeyMgmt) : PmksaEntry where
  addr := addr
  pmkid := rsnPmkid pmk aa spa akmp.sha256
  pmk := pmk
  expiration := now + if sessionTimeout > 0 then sessionTimeout else dot11RSNAConfigPMKLifetime
  akmp := akmp
  spa := spa
  identity := eapol.bind EapolData.identity
  radiusClass := eapol.elim [] EapolData.radiusClass
  eapTypeAuthsrv := eapol.elim 0 EapolData.eapTypeAuthsrv
  vlanId := eapol.elim 0 EapolData.vlanId
  opportunistic := false

/-- Free the entry the lookup by `spa` finds first, if any. -/
def replaceOld (c : PmksaCache) (spa : MacAddr) : PmksaCache :=
  match authGet c (some spa) none with
  | some pos => freeEntry c pos
  | none => c

/-- Remove the oldest entry when the cache is full. -/
def makeRoom (c : PmksaCache) : PmksaCache :=
  match c.pmksa with
  | head :: _ => if c.pmksaCount ≥ pmksaCacheMaxEntries then freeEntry c head else c
  | [] => c

/-- Add an entry for a new PMK, replacing an old one of the same station.
Source: `pmksa_cache_auth_add`. -/
def authAdd (c : PmksaCache) (addr : Option ℕ) (pmk : Bytes) (aa spa : MacAddr)
    (sessionTimeout : ℤ) (eapol : Option EapolData) (akmp : WpaKeyMgmt) :
    Option PmksaEntry × PmksaCache :=
  if pmk.length > pmkLen then (none, c)
  else
    match zallocEntry c addr with
    | none => (none, c)
    | some a =>
      let entry := newEntry rsnPmkid a c.now pmk aa spa sessionTimeout eapol akmp
      (some entry, linkEntry (makeRoom (replaceOld c spa)) entry)

/-- Add an entry for opportunistic key caching: the data of `oldEntry` under another PMKID.
Source: `pmksa_cache_add_okc`, which does not read its argument `aa`. -/
def addOkc (c : PmksaCache) (addr : Option ℕ) (oldEntry : PmksaEntry) (pmkid : Pmkid) :
    Option PmksaEntry × PmksaCache :=
  match zallocEntry c addr with
  | none => (none, c)
  | some a =>
    let entry := { oldEntry with addr := a, pmkid := pmkid, opportunistic := true }
    (some entry, linkEntry c entry)

/-- The operations on a cache: the two insertions, `pmksa_cache_free_entry` of a linked entry,
`pmksa_cache_expire`, and the passing of time. -/
inductive Op
  | authAdd (addr : Option ℕ) (pmk : Bytes) (aa spa : MacAddr) (sessionTimeout : ℤ)
      (eapol : Option EapolData) (akmp : WpaKeyMgmt)
  | addOkc (addr : Option ℕ) (oldEntry : PmksaEntry) (pmkid : Pmkid)
  | freeEntry (addr : ℕ)
  | expire
  | advance (dt : ℕ)

/-- One operation: its result pointer and the cache after it. -/
def apply (c : PmksaCache) : Op → Option PmksaEntry × PmksaCache
  | .authAdd addr pmk aa spa sessionTimeout eapol akmp =>
    authAdd rsnPmkid c addr pmk aa spa sessionTimeout eapol akmp
  | .addOkc addr oldEntry pmkid => addOkc c addr oldEntry pmkid
  | .freeEntry addr =>
    match c.pmksa.find? fun e => e.addr = addr with
    | some entry => (none, freeEntry c entry)
    | none => (none, c)
  | .expire => (none, expire c)
  | .advance dt => (none, { c with now := c.now + dt })

def step (c : PmksaCache) (op : Op) : PmksaCache := (apply rsnPmkid c op).2

end Operations

end Hostapd.Ap.Pmksa
