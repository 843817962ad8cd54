import ServiceHost.Main
import ServiceHost.Proofs.Console.Grammar
import ServiceHost.Proofs.Directive.Script
import ServiceHost.Proofs.Directive.Written
import ServiceHost.Proofs.Entry.Closing
import ServiceHost.Proofs.Executor.FirstCome
import ServiceHost.Proofs.Host.Preloaded
import ServiceHost.Proofs.Host.SelfTest
import ServiceHost.Proofs.Host.Transparency
import ServiceHost.Proofs.Host.Uniqueness
import ServiceHost.Proofs.Lifecycle.LastExit
import ServiceHost.Proofs.Lifecycle.Stops
import ServiceHost.Proofs.Lifecycle.Transitions
import ServiceHost.Proofs.Plugin.Loaders
import ServiceHost.Proofs.Resolver.Lookup
import ServiceHost.Proofs.Resolver.Mapping
import ServiceHost.Proofs.Service.Heartbeat
import ServiceHost.Proofs.Task.Exits
import ServiceHost.Slot
