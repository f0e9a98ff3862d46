import Ariel.Main
import Ariel.Proofs.Calendar.Datetime
import Ariel.Proofs.Query.Assembly
import Ariel.Proofs.Query.Draft
import Ariel.Proofs.Query.Editing
import Ariel.Proofs.Query.Lines
import Ariel.Proofs.Query.Predicate
import Ariel.Proofs.Query.Reading
import Ariel.Proofs.Query.Record
import Ariel.Proofs.Query.TimeRange
import Ariel.Proofs.Query.Window.Harmless
import Ariel.Proofs.Query.Window.RoundTrip
import Ariel.Proofs.Service.Build
import Ariel.Proofs.Service.Request
import Ariel.Proofs.Session.Dialogue
import Ariel.Proofs.Session.Reentry
import Ariel.Proofs.Session.Values
import Ariel.Proofs.Template.FillingOrder
import Ariel.Proofs.Template.FrontEnds
import Ariel.Proofs.Template.Substitution
import Ariel.Proofs.Template.Swapping
import Ariel.Proofs.Template.TimeRanges
import Ariel.Proofs.Template.Validity
import Ariel.Proofs.Validation.Beginning
import Ariel.Proofs.Validation.Call
import Ariel.Proofs.Validation.Comparison
import Ariel.Proofs.Validation.Condition
import Ariel.Proofs.Validation.LetterCase
import Ariel.Proofs.Validation.Operator
import Ariel.Proofs.Validation.Outside
import Ariel.Proofs.Validation.Padding
import Ariel.Proofs.Validation.Parentheses
import Ariel.Service.Respond
