import ContainerKeys.Main
import ContainerKeys.Rebuild.Service
import ContainerKeys.Proofs.Merge
import ContainerKeys.Proofs.Positions
import ContainerKeys.Proofs.Attempts
import ContainerKeys.Proofs.Drafts
import ContainerKeys.Proofs.SourceOrder
import ContainerKeys.Proofs.Rebuild.Freshness
import ContainerKeys.Proofs.DiagnosticTables
import ContainerKeys.Proofs.Rebuild.Boards
import ContainerKeys.Proofs.Builds
import ContainerKeys.Proofs.Accounts
import ContainerKeys.Proofs.Diagnostics
import ContainerKeys.Proofs.FileTrees
import ContainerKeys.Proofs.Searches
import ContainerKeys.Proofs.Contributions
import ContainerKeys.Proofs.Edits
import ContainerKeys.Proofs.Isolation
import ContainerKeys.Proofs.Rebuild.IgnoredChanges
import ContainerKeys.Proofs.NormalPaths
import ContainerKeys.Proofs.Surveys
import ContainerKeys.Proofs.FoundFiles
import ContainerKeys.Proofs.Narrowing
import ContainerKeys.Proofs.Answers
import ContainerKeys.Proofs.Rebuild.Subscriptions
import ContainerKeys.Proofs.Checks
import ContainerKeys.Proofs.Patterns
import ContainerKeys.Proofs.Cursor.Strings
import ContainerKeys.Proofs.Cursor.Literals
import ContainerKeys.Proofs.Cursor.Words
import ContainerKeys.Proofs.Cursor.Lists
import ContainerKeys.Proofs.Cursor.Spans
import ContainerKeys.Proofs.Chains
import ContainerKeys.Proofs.Folders
import ContainerKeys.Proofs.Probing
import ContainerKeys.Proofs.Packages
import ContainerKeys.Proofs.Containment
import ContainerKeys.Proofs.Origins
import ContainerKeys.Proofs.Globs
import ContainerKeys.Proofs.GlobParts
import ContainerKeys.Proofs.Cursor.Typing
import ContainerKeys.Proofs.Characters
import ContainerKeys.Proofs.Columns
import ContainerKeys.Proofs.Usages
import ContainerKeys.Proofs.Lines
import ContainerKeys.Proofs.Exports
import ContainerKeys.Proofs.ContainerNames
import ContainerKeys.Proofs.LiteralKeys
import ContainerKeys.Proofs.LegibleTrees
import ContainerKeys.Proofs.Visitors
import ContainerKeys.Proofs.Bindings
import ContainerKeys.Proofs.Likeness
import ContainerKeys.Proofs.LikeIndexes
import ContainerKeys.Proofs.Rearrangements
import ContainerKeys.Proofs.FluentCalls
import ContainerKeys.Proofs.FlawLines
