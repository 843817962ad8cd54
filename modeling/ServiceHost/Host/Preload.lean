import ServiceHost.Host.Registry

/-! Preloading of a plugin directory: every class that an archive designates becomes a
started service, and its name resolves to the plugin loader from then on. -/

set_option autoImplicit false

namespace ServiceHost.Plugin

def Notice.line : Notice → LogLine
  | loaded className => ⟨.info, s!"plugin {className} loaded"⟩
  | failed className path cause => ⟨.error, failureText className path cause⟩

def makeAll : List (Instance Blueprint) → Host → List (String × ServiceId) × Host
  | [], host => ([], host)
  | built :: rest, host =>
    let (service, host) := host.make built.value
    let (others, host) := makeAll rest host
    ((built.className, service) :: others, host)

/-- Scans a directory under a new loader, makes the services it designates, and gives a resolver
for their names. -/
def openDirectory (dir : String) (host : Host) : (ResolverId × List (String × ServiceId)) × Host :=
  let preloader : Preloader := ⟨dir, none⟩
  let loader := preloader.rescan designated? host.around.files (host.loaders + 1)
  let (notices, built) := instantiateAll host.factories loader
  let (services, made) := makeAll built { host with loaders := host.loaders + 1 }
  let (resolver, added) := made.addResolver (.plugins ⟨dir, some loader⟩)
  ((resolver, services), { added with log := added.log ++ notices.map Notice.line })

/-- Deploys the resolver for each class and adds its service. A service that does not start is put
on record. -/
def addAll (resolver : ResolverId) : List (String × ServiceId) → Flow Unit
  | [] => return
  | (className, service) :: rest => do
    -- The name resolves even if its service does not start.
    Flow.modify (Host.deploy className resolver)
    match ← (Registry.add service Table.empty).outcome with
    | .ok _ => pure ()
    | .error cause =>
      Flow.modify (Host.error s!"plugin {className} did not start: {cause.message}")
    addAll resolver rest

def preload (dir : String) : Flow ResolverId := do
  let (resolver, services) ← Flow.act (openDirectory dir)
  addAll resolver services
  return resolver

end ServiceHost.Plugin
