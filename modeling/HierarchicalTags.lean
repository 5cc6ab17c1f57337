import HierarchicalTags.Item
import HierarchicalTags.JsArray
import HierarchicalTags.Gateway
import HierarchicalTags.Core
import HierarchicalTags.Dropdown.Model
import HierarchicalTags.Dropdown.Invariant
import HierarchicalTags.Selector.Model
import HierarchicalTags.Selector.Invariant
import HierarchicalTags.Selector.Session
import HierarchicalTags.Contracts
import HierarchicalTags.TestPage
import HierarchicalTags.SpecCore
import HierarchicalTags.Dropdown.Refinement
import HierarchicalTags.Selector.Refinement
import HierarchicalTags.Query
import HierarchicalTags.ApiTest
