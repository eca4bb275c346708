import Hostapd.Ap.AclProvenance
import Hostapd.Ap.PmksaCacheInv
import Hostapd.Ap.StaInfo
import Hostapd.Ap.WpaAuth.GroupRekey
import Hostapd.Crypto.AesOmac1
import Hostapd.Crypto.AesWrap
import Hostapd.Crypto.Milenage
import Hostapd.EapPeer.TlsRoundTrip
import Hostapd.EapServer.FastPacOpaque
import Hostapd.EapServer.TlsReassembly
import Hostapd.Tls.RecordSafety
import Hostapd.Utils.EloopSocks
import Hostapd.Utils.EloopTimerRuns
import Hostapd.Wps.HttpreadBounds
import Hostapd.Wps.Nonces
import Hostapd.Tls.X509Chain
import Hostapd.P2p.Foreign
import Hostapd.P2p.PeerTable
import Hostapd.EapolSupp.Freshness
import Hostapd.P2p.GroupMembers
import Hostapd.P2p.SdTransfer
import Hostapd.RsnSupp.TdlsKeys
import Hostapd.Ap.FtAuthentic
import Hostapd.EapPeer.FastPacBin
import Hostapd.EapPeer.FastPacList
import Hostapd.EapolSupp.ConcludedRuns
import Hostapd.WpaSupplicant.BssRuns
import Hostapd.EapPeer.PwdExchange
import Hostapd.Ap.ApListRuns
import Hostapd.Ap.ProtectionRuns
import Hostapd.Ap.ValidateIe
import Hostapd.Common.InsertPmkid
import Hostapd.EapServer.NakList
import Hostapd.EapServer.PendingWait
import Hostapd.Radius.Accessors
import Hostapd.Radius.ClientPass
import Hostapd.Radius.ServerDuplicates
import Hostapd.RsnSupp.KeyDataRoundTrip
import Hostapd.RsnSupp.PmksaClone
import Hostapd.Wps.AttrCodec
import Hostapd.Wps.AuthorizedMacs
import Hostapd.Wps.Encapsulate
import Hostapd.Ap.PskSearch
import Hostapd.EapCommon.Ikev2
import Hostapd.EapCommon.Ikev2Encrypted
import Hostapd.EapCommon.PwdMemory
import Hostapd.EapCommon.SimAttrs
import Hostapd.P2p.FrameAttrs
import Hostapd.P2p.FrameRoundTrip
import Hostapd.P2p.Membership
import Hostapd.Wps.Ndef
