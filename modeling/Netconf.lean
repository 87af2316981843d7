import Netconf.Proofs.Batch
import Netconf.Proofs.Configuration
import Netconf.Proofs.Delimiting
import Netconf.Proofs.EndOfMessage
import Netconf.Proofs.ErrorFields
import Netconf.Proofs.FailureLog
import Netconf.Proofs.Keeping
import Netconf.Proofs.RandomBits
import Netconf.Proofs.Refusal
import Netconf.Proofs.RequestText
import Netconf.Proofs.SeveralLines
import Netconf.Proofs.Severity
import Netconf.Proofs.Success
import Netconf.Proofs.WholeCharacters
