import GridBridge.Main
import GridBridge.Proofs.Bridge.Sequence
import GridBridge.Proofs.Bridge.Verdict
import GridBridge.Proofs.Codec.Growth
import GridBridge.Proofs.CommandLine
import GridBridge.Proofs.Config.Classpath
import GridBridge.Proofs.Config.Override
import GridBridge.Proofs.Config.Saved
import GridBridge.Proofs.Managed.Inheritance
import GridBridge.Proofs.Managed.Stale
import GridBridge.Proofs.Refinement.Start
import GridBridge.Proofs.Session.Bout
import GridBridge.Proofs.Session.Drains
import GridBridge.Proofs.Session.Driven
import GridBridge.Proofs.Session.Issue
import GridBridge.Proofs.Session.Turns
