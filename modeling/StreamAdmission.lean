import StreamAdmission.Files
import StreamAdmission.Main
import StreamAdmission.Probe.Client
import StreamAdmission.Probe.Static
import StreamAdmission.Proofs.Broker.Assembly
import StreamAdmission.Proofs.Broker.Rendering
import StreamAdmission.Proofs.CommandLine
import StreamAdmission.Proofs.Gate.Alike
import StreamAdmission.Proofs.Gate.Frame
import StreamAdmission.Proofs.Gate.Log
import StreamAdmission.Proofs.Gate.Restriction
import StreamAdmission.Proofs.Numbers
import StreamAdmission.Proofs.Probe.Bracket
import StreamAdmission.Proofs.Probe.Client
import StreamAdmission.Proofs.Probe.Snapshot
import StreamAdmission.Proofs.Settings.Dispatch
import StreamAdmission.Proofs.Settings.YamlAgreement
import StreamAdmission.Proofs.Stream.Decoding
import StreamAdmission.Proofs.Stream.Layouts
import StreamAdmission.Proofs.Stream.RoundTrip
