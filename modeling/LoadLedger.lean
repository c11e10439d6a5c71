import LoadLedger.FileText
import LoadLedger.Main
import LoadLedger.Proofs.Listing.RoundTrip
import LoadLedger.Proofs.Tracker.Saved
import LoadLedger.Proofs.FileTree.Replaceable
import LoadLedger.Proofs.Listing.DataLines
import LoadLedger.Proofs.Listing.Narrowing
import LoadLedger.Proofs.Listing.Remarks
import LoadLedger.Proofs.Listing.Storable
import LoadLedger.Proofs.Store.Reloading
import LoadLedger.Proofs.Ledger.Recording
import LoadLedger.Proofs.Store.RecordedReload
import LoadLedger.Proofs.Tracker.Restart
import LoadLedger.Proofs.Tracker.Supported
import LoadLedger.Proofs.Command.Answering
import LoadLedger.Proofs.Command.Parsing
import LoadLedger.Proofs.Command.Running
import LoadLedger.Proofs.Command.Refinement
import LoadLedger.Proofs.Ledger.Forgetting
import LoadLedger.Proofs.Ledger.Summary
import LoadLedger.Proofs.Ledger.Lasting
import LoadLedger.Proofs.Store.Atomicity
import LoadLedger.Proofs.Store.Scheduling
import LoadLedger.Proofs.Drafting.Publishing
import LoadLedger.Proofs.Store.Reordering
import LoadLedger.Proofs.Ledger.Pruning
import LoadLedger.Proofs.Ledger.Novelty
import LoadLedger.Proofs.Ledger.Joining
import LoadLedger.Proofs.Command.Addressing
import LoadLedger.Proofs.Command.Arguments
import LoadLedger.Proofs.Command.Options
import LoadLedger.Proofs.Command.Installing
