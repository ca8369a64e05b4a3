import StreamAdmission.Broker.Address

/-!
# Cluster whitelists

The endpoints a connector may read from. An empty whitelist allows every cluster; any other allows
an address that shares an endpoint with it.
-/

namespace StreamAdmission

/-- A set of endpoints, each listed once and in order. -/
@[ext]
structure Whitelist where
  endpoints : List Endpoint
  ascending : Endpoint.Ascending endpoints
  deriving DecidableEq, Repr

namespace Whitelist

def unrestricted : Whitelist := ⟨[], .nil⟩

instance : Inhabited Whitelist := ⟨unrestricted⟩

/-- The whitelist with one endpoint more, unless it holds it already. -/
def insert (e : Endpoint) (w : Whitelist) : Whitelist :=
  ⟨Endpoint.insertNew e w.endpoints, Endpoint.insertNew_ascending w.ascending e⟩

def ofList (endpoints : List Endpoint) : Whitelist := endpoints.foldr insert unrestricted

/-- Reads the setting; one that is absent or blank restricts nothing. -/
def ofSetting (setting : Option String) : Except AddressError Whitelist :=
  match setting with
  | none => .ok unrestricted
  | some text =>
    if Text.trim text.toList = [] then .ok unrestricted
    else (Endpoint.parseList (String.ofList (Text.trim text.toList))).map ofList

def isEmpty (w : Whitelist) : Bool := w.endpoints.isEmpty

def size (w : Whitelist) : Nat := w.endpoints.length

def contains (w : Whitelist) (e : Endpoint) : Bool := w.endpoints.contains e

/-- Whether a source at the address may be read. -/
def allows (w : Whitelist) (a : Address) : Bool := w.isEmpty || a.brokers.any w.contains

/-- The endpoints in order, separated by a comma and a space. -/
def render (w : Whitelist) : String :=
  String.ofList (Text.join [',', ' '] (w.endpoints.map Endpoint.chars))

end Whitelist

end StreamAdmission
