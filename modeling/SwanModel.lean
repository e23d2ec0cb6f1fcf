import SwanModel.Interface.Basic
import SwanModel.Main
import SwanModel.Proofs.Asset.Saved
import SwanModel.Proofs.Information.Inspection
import SwanModel.Proofs.Language.PhraseEquality
import SwanModel.Proofs.Language.Protection
import SwanModel.Proofs.Model.Discipline
import SwanModel.Proofs.Model.Finding
import SwanModel.Proofs.Name.Luids
import SwanModel.Proofs.Name.Pragmas
import SwanModel.Proofs.Name.Qualifiers
import SwanModel.Proofs.Numeral.Decimals
import SwanModel.Proofs.Numeral.RealParts
import SwanModel.Proofs.Printing.Activations
import SwanModel.Proofs.Printing.Definitions
import SwanModel.Proofs.Printing.Layouts
import SwanModel.Proofs.Printing.Regrouping
import SwanModel.Proofs.Project.Preorder
import SwanModel.Proofs.Project.Repetition
import SwanModel.Proofs.Project.Resolution
import SwanModel.Proofs.Reading.Failures
import SwanModel.Proofs.Store.ModuleText
import SwanModel.Proofs.Store.RenamingValidity
import SwanModel.Session.Call
import SwanModel.Store.Report
