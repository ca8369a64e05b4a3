import StreamAdmission.Probe.Client
import StreamAdmission.Proofs.Broker.Canonical
import StreamAdmission.Proofs.Gate.Findings
import StreamAdmission.Proofs.Table

/-!
# Clients of the admitted cluster

A client has the properties configured for the consumer but for three: the brokers are those of the
address in any case, and an identity and a protocol are added where none is configured. So nothing
that is configured leads a client to other brokers than those that the whitelist was asked about.
-/

namespace StreamAdmission

/-- The properties of a client for an address, told from those configured for the consumer. -/
structure ClientOf (consumer : Table String String) (a : Address) (client : Table String String) :
    Prop where
  servers : client.get? "bootstrap.servers" = some a.bootstrapServers
  identity : client.get? "client.id" = some ((consumer.get? "client.id").getD "partitionFinder")
  protocol : client.get? "security.protocol" =
    if a.secure then some ((consumer.get? "security.protocol").getD "ssl")
    else consumer.get? "security.protocol"
  others : ∀ key, key ≠ "bootstrap.servers" → key ≠ "client.id" → key ≠ "security.protocol" →
    client.get? key = consumer.get? key

namespace ClientOf
variable {consumer client client' : Table String String} {a : Address}

theorem unique (h : ClientOf consumer a client) (h' : ClientOf consumer a client') :
    client = client' := by
  apply Table.ext_get?
  intro key
  by_cases hServers : key = "bootstrap.servers"
  · rw [hServers, h.servers, h'.servers]
  by_cases hIdentity : key = "client.id"
  · rw [hIdentity, h.identity, h'.identity]
  by_cases hProtocol : key = "security.protocol"
  · rw [hProtocol, h.protocol, h'.protocol]
  · rw [h.others key hServers hIdentity hProtocol, h'.others key hServers hIdentity hProtocol]

/-- The brokers that are configured for the consumer have no influence. -/
theorem of_agree {consumer' : Table String String} (h : ClientOf consumer a client)
    (agree : ∀ key, key ≠ "bootstrap.servers" → consumer'.get? key = consumer.get? key) :
    ClientOf consumer' a client where
  servers := h.servers
  identity := by
    rw [agree "client.id" (by decide)]
    exact h.identity
  protocol := by
    rw [agree "security.protocol" (by decide)]
    exact h.protocol
  others := by
    intro key hServers hIdentity hProtocol
    rw [agree key hServers]
    exact h.others key hServers hIdentity hProtocol

end ClientOf

section Configure
variable (visited : List (String × String)) (a : Address)

theorem get?_configure_of_ne {key : String} (h : key ≠ "security.protocol") :
    (configure visited a).get? key =
      if key = "client.id" then some (((Table.ofList visited).get? key).getD "partitionFinder")
      else if key = "bootstrap.servers" then some a.bootstrapServers
      else (Table.ofList visited).get? key := by
  -- the protocol comes last and leaves every other property as it is
  have hNamed : (configure visited a).get? key =
      (((Table.ofList visited).insert "bootstrap.servers" a.bootstrapServers).insertIfNew
        "client.id" partitionFinder).get? key := by
    unfold configure
    split
    · rw [Table.get?_insertIfNew, if_neg h]
    · rfl
  rw [hNamed, Table.get?_insertIfNew, Table.get?_insert, Table.get?_insert]
  by_cases hIdentity : key = "client.id"
  · subst hIdentity
    rfl
  · rw [if_neg hIdentity, if_neg hIdentity]

theorem get?_configure_protocol :
    (configure visited a).get? "security.protocol" =
      if a.secure then some (((Table.ofList visited).get? "security.protocol").getD "ssl")
      else (Table.ofList visited).get? "security.protocol" := by
  unfold configure
  split <;> simp [Table.get?_insertIfNew, Table.get?_insert]

theorem clientOf_configure : ClientOf (Table.ofList visited) a (configure visited a) where
  servers := by simp [get?_configure_of_ne]
  identity := by simp [get?_configure_of_ne]
  protocol := get?_configure_protocol visited a
  others := by
    intro key hServers hIdentity hProtocol
    rw [get?_configure_of_ne visited a hProtocol, if_neg hIdentity, if_neg hServers]

end Configure

theorem clientOf_clientProperties (consumer : Table String String) (a : Address) :
    ClientOf consumer a (clientProperties consumer a) := by
  have hClient := clientOf_configure consumer.entries a
  rwa [Table.ofList_entries] at hClient

/-- A client has the configured properties and those of the address, in whatever order it is given
them. The brokers that are configured do not matter to it, and the text that it takes its brokers
from is read back as the brokers of the address, which are those that a whitelist is asked about. -/
theorem client_properties (consumer : Table String String) (text : String) (a : Address)
    (h : Address.parse text = .ok a) :
    (∀ visited : List (String × String), visited.Perm consumer.entries →
      ∀ client, configure visited a = client ↔ ClientOf consumer a client) ∧
    (∀ consumer' : Table String String,
      (∀ key, key ≠ "bootstrap.servers" → consumer'.get? key = consumer.get? key) →
        clientProperties consumer' a = clientProperties consumer a) ∧
    ∃ servers brokers, (clientProperties consumer a).get? "bootstrap.servers" = some servers ∧
      Endpoint.parseList servers = .ok brokers ∧ a.brokers = brokers ∧
      ∀ w : Whitelist, w.allows a = true ↔
        w.endpoints = [] ∨ ∃ e ∈ brokers, e ∈ w.endpoints := by
  have hClient := clientOf_clientProperties consumer a
  refine ⟨?_, ?_, a.bootstrapServers, a.brokers, hClient.servers, ?_, rfl, ?_⟩
  · intro visited hVisited client
    have hConfigured := clientOf_configure visited a
    rw [Table.ofList_of_perm hVisited] at hConfigured
    constructor
    · rintro rfl
      exact hConfigured
    · exact hConfigured.unique
  · intro consumer' hAgree
    exact (clientOf_clientProperties consumer' a).unique (hClient.of_agree hAgree)
  · rw [Endpoint.parseList_eq_ok_iff, Address.bootstrapServers, String.toList_ofList]
    exact Endpoint.readList_join (Address.wellFormed_of_parse h).brokers a.ordered
  · exact fun w => Whitelist.allows_iff

/-- A consumer with brokers, a protocol and a property of its own, set in reverse order. -/
theorem client_properties_redirected :
    let consumer := Table.ofList [("bootstrap.servers", "other:1"), ("group.id", "g"),
      ("security.protocol", "sasl_ssl")]
    let a : Address := ⟨[⟨"b1", 1⟩, ⟨"b2", 9092⟩], "t", true, by decide⟩
    let client := Table.ofList [("bootstrap.servers", "b1:1,b2:9092"),
      ("client.id", "partitionFinder"), ("group.id", "g"), ("security.protocol", "sasl_ssl")]
    Address.parse " kafkassl://b2:+09092,b1:1/t" = .ok a ∧
      ClientOf consumer a client ∧
      clientProperties (consumer.insert "bootstrap.servers" "more:2") a =
        clientProperties consumer a ∧
      ∃ servers brokers, (clientProperties consumer a).get? "bootstrap.servers" = some servers ∧
        Endpoint.parseList servers = .ok brokers ∧ a.brokers = brokers ∧
        ∀ w : Whitelist, w.allows a = true ↔
          w.endpoints = [] ∨ ∃ e ∈ brokers, e ∈ w.endpoints := by
  intro consumer a client
  have hRead : Address.parse " kafkassl://b2:+09092,b1:1/t" = .ok a := by rfl
  obtain ⟨hOrder, hAgree, hServers⟩ := client_properties consumer _ a hRead
  have hClient : configure consumer.entries.reverse a = client := by decide +kernel
  refine ⟨hRead, (hOrder _ (List.reverse_perm _) client).mp hClient, hAgree _ ?_, hServers⟩
  exact fun key hKey => Table.get?_insert_of_ne consumer hKey _

end StreamAdmission
