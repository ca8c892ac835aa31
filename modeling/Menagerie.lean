import Menagerie.Text.Blank
import Menagerie.Pet.Layout
import Menagerie.Pet.Display
import Menagerie.Port
import Menagerie.LogSettings
import Menagerie.Address.Reader
import Menagerie.StartupError
import Menagerie.Store.Handles
import Menagerie.Listeners
import Menagerie.Descriptor
import Menagerie.Descriptor.Set
import Menagerie.Server.Start
import Menagerie.Journal.Occurrences
import Menagerie.Session
import Menagerie.Decimal.Binary64
import Menagerie.Pattern.Reader
import Menagerie.Pattern.Matching
import Menagerie.Filter
import Menagerie.Journal.Logging
import Menagerie.CommandLine.Reader
import Menagerie.Launch
import Menagerie.Server.Calls
import Menagerie.Main
import Menagerie.Proofs.Store.Accounting
import Menagerie.Proofs.Store.Linearization
import Menagerie.Proofs.Store.Reordering
import Menagerie.Proofs.Server.Composition
import Menagerie.Proofs.Server.Start
import Menagerie.Proofs.Filter.DirectiveSet
import Menagerie.Proofs.Filter.Plain
import Menagerie.Proofs.Launch
import Menagerie.Proofs.Server.Calls
import Menagerie.Wire.Grammar
import Menagerie.Pet.Fields
import Menagerie.Proofs.Pet.Fields
import Menagerie.Proofs.Filter.Deciding
import Menagerie.Proofs.Journal.Replay
import Menagerie.Listeners.Reached
import Menagerie.Proofs.Server.Listening
import Menagerie.Decimal.Numeral
import Menagerie.Proofs.Decimal.Integer
import Menagerie.Proofs.Port
import Menagerie.Filter.Grammar
import Menagerie.Proofs.Decimal.Fraction
import Menagerie.Proofs.Filter.Values
import Menagerie.Proofs.Filter.Grammar
import Menagerie.Proofs.Filter.Reprinting
import Menagerie.Proofs.Filter.Slices
import Menagerie.Proofs.Address.Printing
import Menagerie.Proofs.CommandLine.Arguments
import Menagerie.Proofs.CommandLine.Precedence
import Menagerie.Proofs.Descriptor.Layout
import Menagerie.Proofs.Descriptor.Visits
import Menagerie.Proofs.Server.Reflection
import Menagerie.Proofs.Descriptor.Size
import Menagerie.Proofs.Filter.Adding
