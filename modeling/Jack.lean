import Jack.Files.Tree
import Jack.Main
import Jack.Proofs.Anonymity
import Jack.Proofs.Balance
import Jack.Proofs.Checked
import Jack.Proofs.Commands
import Jack.Proofs.Constants
import Jack.Proofs.Contents
import Jack.Proofs.Cutoff
import Jack.Proofs.Diagnosis
import Jack.Proofs.Directory
import Jack.Proofs.Documents
import Jack.Proofs.Forward
import Jack.Proofs.Fragments
import Jack.Proofs.Frames
import Jack.Proofs.Independence
import Jack.Proofs.Layout
import Jack.Proofs.Ledger
import Jack.Proofs.Limits
import Jack.Proofs.Lines
import Jack.Proofs.Mirror
import Jack.Proofs.Names
import Jack.Proofs.Nesting
import Jack.Proofs.Sinks
import Jack.Proofs.Sources
import Jack.Run
