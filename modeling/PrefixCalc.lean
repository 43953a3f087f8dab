import PrefixCalc.Main
import PrefixCalc.Proofs.Session.Recency
import PrefixCalc.Proofs.Session.Safety
import PrefixCalc.Proofs.Environment.Effect
import PrefixCalc.Proofs.Environment.Stage
import PrefixCalc.Proofs.Console.Restart
import PrefixCalc.Proofs.Console.Loops
import PrefixCalc.Proofs.Console.Diagnostics
import PrefixCalc.Proofs.Settings.Names
import PrefixCalc.Proofs.Environment.Messages
import PrefixCalc.Proofs.Language.Unfinished
import PrefixCalc.Proofs.Console.Configured
import PrefixCalc.Proofs.Console.Framing
import PrefixCalc.Proofs.Console.History
import PrefixCalc.Proofs.Environment.Demand
import PrefixCalc.Proofs.Environment.Checked
import PrefixCalc.Proofs.Environment.Rewriting
import PrefixCalc.Proofs.Environment.Agreement
import PrefixCalc.Proofs.Environment.Exchange
import PrefixCalc.Proofs.Language.NumberWord
import PrefixCalc.Proofs.Language.Literals
import PrefixCalc.Proofs.Environment.Store
import PrefixCalc.Proofs.Text.Reading
import PrefixCalc.Proofs.Settings.Listing
import PrefixCalc.Proofs.Environment.Operators
import PrefixCalc.Proofs.Session.Padding
