import ApiReference.Main
import ApiReference.Graph
import ApiReference.Proofs.Aliases
import ApiReference.Proofs.Classes
import ApiReference.Proofs.Statics
import ApiReference.Proofs.Model.Grouping
import ApiReference.Proofs.Conversion
import ApiReference.Proofs.Documentation
import ApiReference.Proofs.Facts.Ids
import ApiReference.Proofs.Laziness
import ApiReference.Proofs.CallStack
import ApiReference.Proofs.Records
import ApiReference.Proofs.Registry.Script
import ApiReference.Proofs.Render.Cycles
import ApiReference.Proofs.Render.Limits
import ApiReference.Proofs.Render.Spelling
import ApiReference.Proofs.Data.Merge
import ApiReference.Proofs.Display
import ApiReference.Proofs.Facts.Inherited
import ApiReference.Proofs.Facts.Linked
import ApiReference.Proofs.Flags.Names
import ApiReference.Proofs.Hidden
import ApiReference.Proofs.Overloads
import ApiReference.Proofs.Parameters
import ApiReference.Proofs.Signatures
import ApiReference.Proofs.Warnings
