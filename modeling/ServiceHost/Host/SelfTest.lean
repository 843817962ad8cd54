import ServiceHost.Host.Registry
import ServiceHost.Service.Builtin

/-! The factories that the host brings along, and the test of the host by itself. -/

set_option autoImplicit false

namespace ServiceHost.Builtin

/-- Makes a service of a builtin kind, whatever the code. -/
def factory (name : String) (loop : RunLoop) : Factory Blueprint := fun _ =>
  .ok ⟨"", .threaded name defaultVersion loop⟩

def register (host : Host) : Host :=
  (host.register testService (factory testService idling)).register heartbeat
    (factory heartbeat beating)

def testCode : Blob := [0xCA, 0xFE, 0xBA, 0xBE]

/-- Deploys the test service. The builtin factories are registered first if there is none for it. -/
def deployTest (host : Host) : Host :=
  let host := if host.factories.contains testService then host else register host
  let (resolver, host) := host.addResolver (.memory (Table.ofList [(testService, testCode)]))
  host.deploy testService resolver

def selfTest : Attempt ServerId := do
  Attempt.modify deployTest
  Registry.addByName testService Table.empty

end ServiceHost.Builtin
