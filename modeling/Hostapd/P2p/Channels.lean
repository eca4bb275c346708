import Hostapd.Common.Defs
import Hostapd.Lib.Pieces
import Hostapd.Lib.Octets

/-!
# Operating channels

The channel lists of P2P: operating classes with channels, in arrays of fixed size (`p2p.h`,
`p2p_utils.c`), and the Channel List attribute that carries one (`p2p_build.c`, `p2p_go_neg.c`).

**`P2pChannels`** is a list within the limits of the arrays. The loop of the parser ends two octets
before the end of the attribute, where a class without channels still fits.
-/

namespace Hostapd.P2p

open Hostapd.Lib

/-! ## The lists -/

/-- Source: `P2P_MAX_REG_CLASSES`. -/
def maxRegClasses : ℕ := 10

/-- Source: `P2P_MAX_REG_CLASS_CHANNELS`. -/
def maxRegClassChannels : ℕ := 20

/-- An operating class with its channels, those in use of the array. Source: `struct p2p_reg_class`.
-/
structure RegClass where
  regClass : UInt8
  channel : List UInt8
  le : channel.length ≤ maxRegClassChannels
  deriving DecidableEq

/-- A channel list, the classes in use of the array. Source: `struct p2p_channels`. -/
structure P2pChannels where
  regClass : List RegClass
  le : regClass.length ≤ maxRegClasses
  deriving DecidableEq

/-- The list after `os_memset(.., 0, ..)`. -/
def P2pChannels.empty : P2pChannels := ⟨[], by decide⟩

def P2pChannels.single (regClass channel : UInt8) : P2pChannels :=
  ⟨[⟨regClass, [channel], Nat.le_add_left 1 19⟩], Nat.le_add_left 1 9⟩

/-- Source: `p2p_channels_includes`. -/
def channelsIncludes (channels : P2pChannels) (regClass channel : UInt8) : Bool :=
  channels.regClass.any fun r => r.regClass = regClass && r.channel.contains channel

/-! ## Intersection -/

/-- Source: `p2p_reg_class_intersect`, into an empty slot. -/
def regClassIntersect (a b : RegClass) : RegClass where
  regClass := a.regClass
  channel := fill maxRegClassChannels ((joined id id a.channel b.channel).map Prod.fst)
  le := length_fill_le (by decide) _

/-- Source: `p2p_channels_intersect`. A class without common channels leaves its slot to the next.
-/
def channelsIntersect (a b : P2pChannels) : P2pChannels where
  regClass := fill maxRegClasses
    (((joined RegClass.regClass RegClass.regClass a.regClass b.regClass).map fun p =>
      regClassIntersect p.1 p.2).filter fun r => r.channel ≠ [])
  le := length_fill_le (by decide) _

/-! ## Frequencies -/

/-- A country string, `char country[3]`. -/
structure Country where
  fst : UInt8
  snd : UInt8
  third : UInt8
  deriving DecidableEq

/-- The frequency of the channels `lo` to `hi`, counted from `base`. -/
def freqWithin (lo hi base channel : ℕ) : Option ℕ :=
  if channel < lo ∨ hi < channel then none else some (base + 5 * channel)

/-- Source: `p2p_channel_to_freq_j4`; `none` is the result -1. -/
def channelToFreqJ4 (regClass channel : ℕ) : Option ℕ :=
  if regClass = 81 then freqWithin 1 13 2407 channel
  else if regClass = 82 then freqWithin 14 14 2414 channel
  else if regClass ∈ [83, 84] then freqWithin 1 13 2407 channel
  else if regClass ∈ [115, 118] then freqWithin 36 64 5000 channel
  else if regClass ∈ [124, 125] then freqWithin 149 161 5000 channel
  else if regClass ∈ [116, 117, 119, 120] then freqWithin 36 64 5000 channel
  else if regClass ∈ [126, 127] then freqWithin 149 161 5000 channel
  else none

/-- Source: `p2p_channel_to_freq`; `none` is the result -1. -/
def channelToFreq (country : Country) (regClass channel : UInt8) : Option ℕ :=
  if country.third = 0x04 then channelToFreqJ4 regClass.toNat channel.toNat
  else if regClass = 1 then freqWithin 36 48 5000 channel.toNat
  else if regClass ∈ [3, 5] then freqWithin 149 161 5000 channel.toNat
  else if regClass ∈ [4, 12, 30] then freqWithin 1 13 2407 channel.toNat
  else if regClass = 31 then freqWithin 14 14 2414 channel.toNat
  else none

/-- The operating class and channel of a frequency. Source: `p2p_freq_to_channel`, which does not
look at the country. -/
def freqToChannel (freq : ℕ) : Option (UInt8 × UInt8) :=
  if 2412 ≤ freq ∧ freq ≤ 2472 then some (81, ((freq - 2407) / 5).toUInt8)
  else if freq = 2484 then some (82, 14)
  else if 5180 ≤ freq ∧ freq ≤ 5240 then some (115, ((freq - 5000) / 5).toUInt8)
  else if 5745 ≤ freq ∧ freq ≤ 5805 then some (124, ((freq - 5000) / 5).toUInt8)
  else none

/-! ## The Channel List attribute -/

def RegClass.encode (r : RegClass) : Bytes :=
  r.regClass :: r.channel.length.toUInt8 :: r.channel

/-- The attribute behind its type and length. Source: `p2p_buf_add_channel_list`. -/
def bufAddChannelList (country : Country) (channels : P2pChannels) : Bytes :=
  [country.fst, country.snd, country.third] ++ channels.regClass.flatMap RegClass.encode

/-- The loop of the parser over the classes, with room for so many; `false` if a class does not fit
the attribute, which ends the parsing. Source: the loop of `p2p_peer_channels_check`. -/
def parseRegClasses : ℕ → Bytes → List RegClass × Bool
  | room + 1, regClass :: channels :: c :: rest =>
    if (c :: rest).length < channels.toNat then ([], false)
    else
      let r := parseRegClasses room ((c :: rest).drop channels.toNat)
      (⟨regClass, (c :: rest).take (min channels.toNat maxRegClassChannels),
        (List.length_take_le _ _).trans (min_le_right _ _)⟩ :: r.1, r.2)
  | _, _ => ([], true)

theorem length_parseRegClasses_le (room : ℕ) (data : Bytes) :
    (parseRegClasses room data).1.length ≤ room := by
  induction room generalizing data with
  | zero => simp [parseRegClasses]
  | succ room ih =>
    match data with
    | [] | [_] | [_, _] => simp [parseRegClasses]
    | regClass :: channels :: c :: rest =>
      rw [parseRegClasses]
      split_ifs
      · exact Nat.zero_le _
      · simpa using ih _

end Hostapd.P2p
