/-
The other side of the air: the frames an access point sends to this
client, byte by byte, and the sample network that examples of runs are
played on.

A builder takes the BSSID and the client's address, so a frame of a
builder is from the target and for the client whatever they are. The
EAPOL-Key frames have the layout of `eapolKeyFrame`, with the access
point's nonce in the nonce field.

The sample client has primitives of its own (`sampleHash`): a hash that
copies its key or the nonces, so that a handshake is played out in a few
steps. Nothing general is proved about it.
-/
import Rtw88.Model.System

namespace Rtw88

-- ================================================================== frames

/-- A frame of the access point to a client. -/
def apFrame (fc : UInt16) (client bssid : Bytes 6) (body : List UInt8) :
    SkBuff :=
  { data := hdr3addr fc client bssid bssid 0 ++ body }

/-- A beacon with these elements. -/
def beaconFrame (bssid : Bytes 6) (ies : List UInt8) : SkBuff :=
  apFrame 0x0080 broadcast bssid (List.replicate 12 0 ++ ies)

/-- An authentication response with this status. -/
def authFrame (client bssid : Bytes 6) (status : UInt16) : SkBuff :=
  apFrame 0x00B0 client bssid ([0, 0, 2, 0] ++ le16 status)

/-- An association response with this status. -/
def assocFrame (client bssid : Bytes 6) (status : UInt16) : SkBuff :=
  apFrame 0x0010 client bssid ([0x31, 0x04] ++ le16 status ++ [0x01, 0xC0])

/-- A deauthentication frame. -/
def deauthFromAp (client bssid : Bytes 6) : SkBuff :=
  apFrame 0x00C0 client bssid [reasonDeauthLeaving, 0]

/-- A data frame that carries one MSDU. -/
def dataFromAp (client bssid : Bytes 6) (ethertype : UInt16)
    (payload : List UInt8) : SkBuff :=
  apFrame (ftypeData ||| fctlFromDs) client bssid
    (snapHdr ethertype ++ payload)

/-- An EAPOL-Key body in a data frame. -/
def eapolFromAp (client bssid : Bytes 6) (body : List UInt8) : SkBuff :=
  dataFromAp client bssid ethPPae body

/-- The body of an M1. -/
def m1Body (anonce : Bytes 32) (replay : Bytes 8) : List UInt8 :=
  eapolKeyFrame 0x008A replay anonce (zeros 16) []

/-- The MIC of an EAPOL-Key frame under a KCK. -/
def eapolMic (pr : Prims) (kck : Bytes 16) (frame : Bytes 16 → List UInt8) :
    Bytes 16 :=
  grab (pr.hmacSha1 kck.toList (frame (zeros 16))).toList 0 16

/-- The body of an M3 under a PTK, with its key data in the clear. -/
def m3Body (pr : Prims) (ptk : Bytes 64) (anonce : Bytes 32)
    (replay : Bytes 8) (keyData : List UInt8) : List UInt8 :=
  let frame := fun mic => eapolKeyFrame 0x01CA replay anonce mic keyData
  frame (eapolMic pr (kckOf ptk) frame)

/-- What the AP makes of a frame it got from a station and sends on into
its own network, to the station that is to have it: from the DS instead
of to it, the destination first, then its own address, then the source;
a duration and a sequence control of its own; everything behind the
header as it was. -/
def relay (sa : Bytes 6) (duration seq : UInt16) (frame : List UInt8) :
    List UInt8 :=
  le16 ((frameControl frame &&& ~~~fctlToDs) ||| fctlFromDs)
    ++ (le16 duration ++ ((addr3 frame).toList ++ ((addr1 frame).toList
      ++ (sa.toList ++ (le16 seq ++ frame.drop 24)))))

-- ======================================================== the sample network

/-- The sample hash: a KCK is its own hash, and so is the later nonce. -/
def sampleHash (key msg : List UInt8) : Bytes 20 :=
  grab (if key.length = 16 then key else msg.drop 67) 0 20

/-- The sample primitives. -/
def samplePrims : Prims :=
  { hmacSha1 := sampleHash, decryptBlock := fun _ b => b }

def sampleAp : Bytes 6 := ⟨[2, 0, 0, 0, 0, 1], rfl⟩
def sampleMac : Bytes 6 := ⟨[2, 0, 0, 0, 0, 2], rfl⟩

/-- One channel of the 2.4 GHz band. -/
def sampleBand : SupportedBand :=
  { channels :=
      [{ band := .ghz2, centerFreq := 2412, hwValue := 1, disabled := false
         noIr := false, radar := false }]
    htCap := {}, vhtCap := {}, band := .ghz2 }

/-- A client on that channel, with these primitives. -/
def sampleHw (pr : Prims) : Hw :=
  { prims := pr, macAddr := sampleMac
    bands := fun b => if b = Band.ghz2 then some sampleBand else none
    pciDevice := 0xC822, hwScanSupported := true }

/-- SSID and channel of the sample network. -/
def sampleIes : List UInt8 := [eidSsid, 1, 0x41, eidDsParams, 1, 1]

/-- The RSN element of a CCMP network. -/
def ccmpIe : List UInt8 := rtw88BuildSelectedRsnIe cipherCcmp

/-- The vendor element of a WPA network. -/
def wpaIe : List UInt8 := [221, 8, 0x00, 0x50, 0xf2, 0x01, 1, 0, 0, 0]

/-- A scan that finds the network with this security element. -/
def scanEvents (ie : List UInt8) : List Event :=
  [.cmdScan {}, .rx {} (beaconFrame sampleAp (sampleIes ++ ie)),
   .scanDone false]

/-- `cmdConnect` to it, and the five stretches of `doAuthenticate`. -/
def authEvents : List Event :=
  [.cmdConnect (some [0x41]) [0x70], .auth 0 {} false, .auth 0 {} false,
   .auth 0 {} false, .auth 0 {} false, .auth 0 {} false]

/-- Up to the accepted association. -/
def assocEvents : List Event :=
  authEvents ++
    [.rx {} (authFrame sampleMac sampleAp 0),
     .rx {} (assocFrame sampleMac sampleAp 0)]

/-- The `i`-th nonce of the sample network. -/
def sampleNonce (i : UInt8) : Bytes 32 := List.Vector.replicate 32 i

/-- The PTK the sample hash makes of a nonce that is the later one. -/
def samplePtk (nonce : Bytes 32) : Bytes 64 :=
  derivePTK samplePrims (zeros 32) nonce nonce sampleMac sampleAp

/-- The 4-way handshake with SNonce `i`, above the ANonce. -/
def handshakeEvents (i : UInt8) : List Event :=
  [.rx { snonce := sampleNonce i }
      (eapolFromAp sampleMac sampleAp (m1Body (zeros 32) (zeros 8))),
   .rx {}
      (eapolFromAp sampleMac sampleAp
        (m3Body samplePrims (samplePtk (sampleNonce i)) (zeros 32) (zeros 8)
          []))]

/-- The sample network, joined. -/
def joinEvents : List Event :=
  scanEvents ccmpIe ++ assocEvents ++ handshakeEvents 7

/-- An M3 of zeros, with the MIC that `kernPrims` gives it under the
all-zero KCK. -/
def forgedM3 : List UInt8 :=
  eapolKeyFrame 0x01CA (zeros 8) (zeros 32)
    ⟨[151, 247, 207, 208, 6, 132, 76, 27, 37, 207, 169, 219, 62, 168, 32, 66],
      rfl⟩ []

/-- An Ethernet frame of the host. -/
def samplePacket : List UInt8 :=
  List.replicate 6 0xff ++ sampleMac.toList ++ [0x08, 0x00, 0x45]

end Rtw88
