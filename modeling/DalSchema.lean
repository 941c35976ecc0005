import DalSchema.Command.Run
import DalSchema.Compile.File
import DalSchema.Main
import DalSchema.Proofs.Comments
import DalSchema.Proofs.Completing
import DalSchema.Proofs.Printing
import DalSchema.Proofs.Recording
import DalSchema.Proofs.Counting
import DalSchema.Proofs.Compiling
import DalSchema.Proofs.WellFormed
import DalSchema.Proofs.Expecting
import DalSchema.Proofs.Joining
import DalSchema.Proofs.Walking
import DalSchema.Proofs.Conversions
import DalSchema.Proofs.Running
import DalSchema.Proofs.Delivering
import DalSchema.Proofs.Layout
import DalSchema.Proofs.Faults
import DalSchema.Proofs.Positions
import DalSchema.Proofs.Folding
import DalSchema.Proofs.Reordering
import DalSchema.Proofs.Spanning
import DalSchema.Proofs.Lines
import DalSchema.Proofs.Endings
import DalSchema.Proofs.Logging
import DalSchema.Proofs.Underlining
import DalSchema.Proofs.Locating
import DalSchema.Proofs.Edges
