import StreamAdmission.Broker.Address
import StreamAdmission.Table

/-!
# Client properties

The properties of the client that asks a cluster for metadata: those configured for the consumer,
with the brokers always taken from the address.
-/

namespace StreamAdmission

/-- The client identity used unless one is configured. -/
def partitionFinder : String := "partitionFinder"

/-- Sets the configured properties in the order in which they are visited, and then those that
depend on the address. -/
def configure (visited : List (String × String)) (a : Address) : Table String String :=
  let copied := Table.ofList visited
  let named :=
    (copied.insert "bootstrap.servers" a.bootstrapServers).insertIfNew "client.id" partitionFinder
  if a.secure then named.insertIfNew "security.protocol" "ssl" else named

/-- The properties of a client for the cluster of an address. -/
def clientProperties (consumer : Table String String) (a : Address) : Table String String :=
  configure consumer.entries a

end StreamAdmission
