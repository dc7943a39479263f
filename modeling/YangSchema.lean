import YangSchema.Main
import YangSchema.Proofs.Compilation.Completeness
import YangSchema.Proofs.Interval.Narrowing
import YangSchema.Proofs.Token.BlockComment
import YangSchema.Proofs.Instances.Additions
import YangSchema.Proofs.Instances.Climbing
import YangSchema.Proofs.Instances.Deciding
import YangSchema.Proofs.Instances.Leafref
import YangSchema.Proofs.Instances.Listing
import YangSchema.Proofs.SyntaxTree.Acceptance
import YangSchema.Proofs.Compilation.Groupings
import YangSchema.Proofs.Compilation.Mirrors
import YangSchema.Proofs.Compilation.Instances
import YangSchema.Proofs.Compilation.Permuting
import YangSchema.Proofs.Compilation.Failing
import YangSchema.Proofs.SyntaxTree.Limits
import YangSchema.Proofs.Draft.Foreign
import YangSchema.Proofs.Compilation.Names
import YangSchema.Proofs.Compilation.DerivedTypes
import YangSchema.Proofs.SyntaxTree.Faultless
import YangSchema.Proofs.Compilation.Respelling
import YangSchema.Proofs.Compilation.Sources
import YangSchema.Proofs.Compilation.Inheritance
import YangSchema.Proofs.Compilation.ListKeys
import YangSchema.Proofs.Linking.Prefixes
import YangSchema.Proofs.Compilation.IdentityCycles
import YangSchema.Proofs.Compilation.ConfigurationLists
import YangSchema.Proofs.Diagnostic.Suppression
import YangSchema.Proofs.Draft.Members
import YangSchema.Proofs.Compilation.Splitting
import YangSchema.Proofs.Diagnostic.ReportOrder
import YangSchema.Proofs.Interval.Expressions
import YangSchema.Proofs.Statement.Paths
import YangSchema.Proofs.SyntaxTree.Quoting
import YangSchema.Proofs.Source.Positions
import YangSchema.Proofs.Statement.Indentation
import YangSchema.Proofs.Text.EditDistance
