import Apidoc.Collection.Load
import Apidoc.Model
import Apidoc.Pattern.Ends
import Apidoc.Pattern.Written
import Apidoc.Proofs.Pattern.Takes
import Apidoc.Proofs.Pattern.Spells
import Apidoc.Proofs.PrintedType.Token
import Apidoc.Proofs.PrintedType.Derivation
import Apidoc.Proofs.PrintedType.Parser
import Apidoc.Proofs.PrintedType.Grammar
import Apidoc.Proofs.PrintedType.Alias
import Apidoc.Proofs.PrintedType.Documented
import Apidoc.Proofs.Pattern.Notation
import Apidoc.Proofs.PrintedType.Language
import Apidoc.Proofs.PrintedType.Words
import Apidoc.Proofs.PrintedType.Brackets
import Apidoc.Proofs.PrintedType.Accepted
import Apidoc.Proofs.Page.ParameterList
import Apidoc.Proofs.Page.TypeEnding
import Apidoc.Proofs.Page.Overload
import Apidoc.Proofs.Pattern.Plain
import Apidoc.Proofs.Pattern.Search
import Apidoc.Proofs.PrintedType.Plain
import Apidoc.Proofs.Page.Block
import Apidoc.Proofs.Page.Description
import Apidoc.Proofs.Page.BlockEnd
import Apidoc.Proofs.Page.FunctionPage
import Apidoc.Proofs.PrintedType.Verbatim
import Apidoc.Proofs.PrintedType.Taken
import Apidoc.Proofs.PrintedType.Row
import Apidoc.Proofs.PrintedType.Canonical
import Apidoc.Proofs.PrintedType.Registered
import Apidoc.Proofs.PrintedType.OwnSpelling
import Apidoc.Proofs.PrintedType.Nesting
import Apidoc.Proofs.PrintedType.DocumentedRows
import Apidoc.Proofs.PrintedType.Agreement
import Apidoc.Proofs.Page.EnumRow
import Apidoc.Proofs.Page.EnumPage
import Apidoc.Proofs.Entity.Encoding
import Apidoc.Proofs.Page.PlainText
import Apidoc.Proofs.ArgumentList.Adoption
import Apidoc.Proofs.Manual.Function
import Apidoc.Proofs.Manual.Property
import Apidoc.Proofs.Model.CallOrder
import Apidoc.Proofs.ArgumentList.Pieces
import Apidoc.Proofs.PrintedType.Enclosed
import Apidoc.Proofs.ArgumentList.Alignment
import Apidoc.Proofs.Manual.ParameterNames
import Apidoc.Proofs.Pattern.Within
import Apidoc.Proofs.Page.LooseDecoration
import Apidoc.Proofs.Pattern.ReadBack
import Apidoc.Proofs.Page.Compiled
import Apidoc.Proofs.Entity.LongNumber
import Apidoc.Proofs.Text.Utf8
import Apidoc.Proofs.Collection.Sources
import Apidoc.Proofs.Collection.Load
import Apidoc.Proofs.Flate.Stored
import Apidoc.Proofs.Text.Lines
import Apidoc.Proofs.Collection.Agreement
import Apidoc.Proofs.PrintedType.TableContents
import Apidoc.Proofs.Manual.FunctionPages
import Apidoc.Proofs.Page.EnumListing
import Apidoc.Proofs.Pattern.Preference
import Apidoc.Proofs.PrintedType.OuterMarks
import Apidoc.Proofs.Page.BrokenType
import Apidoc.Proofs.PrintedType.LeadingConst
import Apidoc.Proofs.Page.FirstSpelling
import Apidoc.Proofs.Page.PropertyPage
import Apidoc.Proofs.Manual.DeclaredProperty
import Apidoc.Proofs.Text.Occurrence
import Apidoc.Proofs.Page.PlainPlaces
import Apidoc.Proofs.Page.TableRow
import Apidoc.Proofs.Page.EnumSpan
import Apidoc.Proofs.ArgumentList.NameReading
import Apidoc.Proofs.ArgumentList.DocumentedNames
import Apidoc.Proofs.ArgumentList.DefaultWords
import Apidoc.Proofs.ArgumentList.LastWord
import Apidoc.Proofs.ArgumentList.UnnamedType
import Apidoc.Proofs.Page.BracketedDefaults
import Apidoc.Proofs.ArgumentList.Rejoining
import Apidoc.Proofs.ArgumentList.GivenNames
import Apidoc.Proofs.Manual.DeclaredName
import Apidoc.Proofs.Manual.MissingProperty
import Apidoc.Proofs.PrintedType.Spacing
import Apidoc.Proofs.PrintedType.BareName
import Apidoc.Proofs.PrintedType.Respelled
import Apidoc.Proofs.Page.OwnScope
import Apidoc.Proofs.Text.Replacement
import Apidoc.Proofs.Deprecation
import Apidoc.Proofs.Manual.PageKeys
import Apidoc.Proofs.Pattern.FirstMatch
import Apidoc.Proofs.Page.ClassPage
import Apidoc.Proofs.Flate.CheckSum
import Apidoc.Proofs.Collection.Payload
import Apidoc.Proofs.PrintedType.FixedSpelling
import Apidoc.Proofs.PrintedType.Joined
import Apidoc.Proofs.PrintedType.Tiling
