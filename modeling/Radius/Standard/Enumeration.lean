import Radius.Dictionary.Table

/-!
The names that the standards give to the numbers of enumerated attributes.
-/

namespace Radius

structure Enumeration where
  type : UInt8
  names : List (String × Int32)

namespace Enumeration

def entries (enumeration : Enumeration) : List NamedValue :=
  enumeration.names.map fun (name, value) => ⟨.topLevel enumeration.type, name, value⟩

def serviceType : Enumeration := ⟨6,
  [("Login-User", 1), ("Framed-User", 2), ("Callback-Login-User", 3),
    ("Callback-Framed-User", 4), ("Outbound-User", 5), ("Administrative-User", 6),
    ("NAS-Prompt-User", 7), ("Authenticate-Only", 8), ("Callback-NAS-Prompt", 9),
    ("Call-Check", 10), ("Callback-Administrative", 11)]⟩

def framedProtocol : Enumeration := ⟨7,
  [("PPP", 1), ("SLIP", 2), ("ARAP", 3), ("Gandalf-SLML", 4), ("Xylogics-IPX-SLIP", 5),
    ("X.75-Synchronous", 6)]⟩

def framedRouting : Enumeration := ⟨10,
  [("None", 0), ("Broadcast", 1), ("Listen", 2), ("Broadcast-Listen", 3)]⟩

def framedCompression : Enumeration := ⟨13,
  [("None", 0), ("Van-Jacobson-TCP-IP", 1), ("IPX-Header-Compression", 2), ("Stac-LZS", 3)]⟩

def loginService : Enumeration := ⟨15,
  [("Telnet", 0), ("Rlogin", 1), ("TCP-Clear", 2), ("PortMaster", 3), ("LAT", 4),
    ("X25-PAD", 5), ("X25-T3POS", 6), ("TCP-Clear-Quiet", 8)]⟩

def terminationAction : Enumeration := ⟨29,
  [("Default", 0), ("RADIUS-Request", 1)]⟩

def acctStatusType : Enumeration := ⟨40,
  [("Start", 1), ("Stop", 2), ("Interim-Update", 3), ("Accounting-On", 7),
    ("Accounting-Off", 8)]⟩

def acctAuthentic : Enumeration := ⟨45,
  [("RADIUS", 1), ("Local", 2), ("Remote", 3)]⟩

def acctTerminateCause : Enumeration := ⟨49,
  [("User-Request", 1), ("Lost-Carrier", 2), ("Lost-Service", 3), ("Idle-Timeout", 4),
    ("Session-Timeout", 5), ("Admin-Reset", 6), ("Admin-Reboot", 7), ("Port-Error", 8),
    ("NAS-Error", 9), ("NAS-Request", 10), ("NAS-Reboot", 11), ("Port-Unneeded", 12),
    ("Port-Preempted", 13), ("Port-Suspended", 14), ("Service-Unavailable", 15),
    ("Callback", 16), ("User-Error", 17), ("Host-Request", 18)]⟩

def nasPortType : Enumeration := ⟨61,
  [("Async", 0), ("Sync", 1), ("ISDN", 2), ("ISDN-V120", 3), ("ISDN-V110", 4), ("Virtual", 5),
    ("PIAFS", 6), ("HDLC-Clear-Channel", 7), ("X.25", 8), ("X.75", 9), ("G.3-Fax", 10),
    ("SDSL", 11), ("ADSL-CAP", 12), ("ADSL-DMT", 13), ("IDSL", 14), ("Ethernet", 15),
    ("xDSL", 16), ("Cable", 17), ("Wireless-Other", 18), ("Wireless-802.11", 19)]⟩

def tunnelType : Enumeration := ⟨64,
  [("PPTP", 1), ("L2F", 2), ("L2TP", 3), ("ATMP", 4), ("VTP", 5), ("AH", 6), ("IP-IP", 7),
    ("MIN-IP-IP", 8), ("ESP", 9), ("GRE", 10), ("DVS", 11), ("IP-in-IP", 12), ("VLAN", 13)]⟩

def tunnelMediumType : Enumeration := ⟨65,
  [("IPv4", 1), ("IPv6", 2), ("NSAP", 3), ("HDLC", 4), ("BBN-1822", 5), ("IEEE-802", 6),
    ("E.163", 7), ("E.164", 8), ("F.69", 9), ("X.121", 10), ("IPX", 11), ("Appletalk", 12),
    ("DecNet-IV", 13), ("Banyan-Vines", 14), ("E.164-NSAP", 15)]⟩

def standard : List Enumeration :=
  [serviceType, framedProtocol, framedRouting, framedCompression, loginService,
    terminationAction, acctStatusType, acctAuthentic, acctTerminateCause, nasPortType,
    tunnelType, tunnelMediumType]

end Enumeration

end Radius
