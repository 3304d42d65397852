import CcsVerifier.Numeric.Binary64
import CcsVerifier.Encoding.Text
import CcsVerifier.Encoding.Base64
import CcsVerifier.Encoding.Split
import CcsVerifier.Crypto.Sha256
import CcsVerifier.Python.Dict
import CcsVerifier.Python.NumberText
import CcsVerifier.Python.Value
import CcsVerifier.Python.Json
import CcsVerifier.Python.JsonText
import CcsVerifier.Python.JsonRoundTrip
import CcsVerifier.Python.Reload
import CcsVerifier.Python.Object
import CcsVerifier.Python.Format
import CcsVerifier.Python.Jcs
import CcsVerifier.Python.JcsOrder
import CcsVerifier.Python.JcsNumber
import CcsVerifier.Python.JcsReload
import CcsVerifier.Python.JcsDumps
import CcsVerifier.Externals
import CcsVerifier.Reference
import CcsVerifier.Semantics.Machine
import CcsVerifier.Transport.Frame
import CcsVerifier.Protocol.Command
import CcsVerifier.Protocol.Receipt
import CcsVerifier.L1.Canonical
import CcsVerifier.L1.Receipt
import CcsVerifier.L1.TamperEvidence
import CcsVerifier.L1.Verification
import CcsVerifier.L1.Preimage
import CcsVerifier.L1.FromDict
import CcsVerifier.L1.StrictLanguage
import CcsVerifier.L1.ReadBack
import CcsVerifier.L1.LegacyNames
import CcsVerifier.L1.Recanonical
import CcsVerifier.L1.Trust
import CcsVerifier.L1.Builder
import CcsVerifier.L1.BuilderRuns
import CcsVerifier.L1.MemberOrder
import CcsVerifier.L1.CanonicalForm
import CcsVerifier.Server.Verify
import CcsVerifier.Server.Issue
import CcsVerifier.Server.SameData
import CcsVerifier.Server.Audit
import CcsVerifier.Server.Aggregation
import CcsVerifier.Server.Consumer
import CcsVerifier.Server.Messages
import CcsVerifier.Server.Connection
import CcsVerifier.Server.Ledger
import CcsVerifier.Server.Sequence
import CcsVerifier.Server.ArgsDigest
import CcsVerifier.Server.ConfigHash
import CcsVerifier.Server.RequestHash
import CcsVerifier.Server.ResultBinding
import CcsVerifier.Server.Authenticity
import CcsVerifier.Server.Isolation
import CcsVerifier.Client.Response
import CcsVerifier.Client.Crossing
import CcsVerifier.Client.Retry
import CcsVerifier.Client.Agreement
import CcsVerifier.Client.Verifier
import CcsVerifier.Client.Fallback
import CcsVerifier.Client.Status
import CcsVerifier.Client.Session
import CcsVerifier.Client.Pairing
import CcsVerifier.Client.Order
import CcsVerifier.Client.Linearization
import CcsVerifier.Client.Recovery
import CcsVerifier.Client.Attempts
import CcsVerifier.Client.PublicKey
import CcsVerifier.Client.Enforcement
