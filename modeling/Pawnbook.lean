import Pawnbook.Book.Overview
import Pawnbook.Walkthrough
import Pawnbook.Reading.Actions
import Pawnbook.Reading.Complete
import Pawnbook.Proofs.EscrowLog
import Pawnbook.Proofs.Lateness
import Pawnbook.Proofs.Overdraft
import Pawnbook.Proofs.Recognition
import Pawnbook.Proofs.Recovery
import Pawnbook.Proofs.Refusal
import Pawnbook.Proofs.StateMachine
import Pawnbook.Proofs.Entitlement
import Pawnbook.Proofs.Transfers
import Pawnbook.Proofs.Consent
import Pawnbook.Proofs.DirectLoan
import Pawnbook.Proofs.Numbering
import Pawnbook.Proofs.AuditTrail
import Pawnbook.Proofs.Walk
import Pawnbook.Proofs.Paging
import Pawnbook.Proofs.ReadState
import Pawnbook.Proofs.Split
import Pawnbook.Proofs.Content
import Pawnbook.Proofs.Projections
import Pawnbook.Proofs.Conservation
import Pawnbook.Proofs.Clock
import Pawnbook.Proofs.Merging
import Pawnbook.Proofs.EntryOrder
