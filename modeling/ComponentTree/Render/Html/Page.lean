/-!
This module contains the page around the lists of an HTML document: its styles, and the script by
which a list is folded and the items with one label are hidden.
-/

namespace ComponentTree.Tree

def pageOpening : List String :=
  ["<!DOCTYPE html>",
   "<html lang=\"en\">",
   "<head>",
   "  <meta charset=\"UTF-8\">",
   "  <meta name=\"viewport\" content=\"width=device-width, initial-scale=1.0\">",
   "  <title>Component Tree</title>",
   "  <style>",
   "    body \x7b",
   "      margin: 0;",
   "      background: #0d1117;",
   "      color: #c9d1d9;",
   "      font-family: -apple-system, 'Segoe UI', Helvetica, Arial, sans-serif;",
   "    \x7d",
   "    .tree-container \x7b",
   "      padding: 16px;",
   "    \x7d",
   "    .tree-root,",
   "    .tree-root ul \x7b",
   "      position: relative;",
   "      list-style: none;",
   "      margin: 0;",
   "      padding: 0 0 0 2.5em;",
   "    \x7d",
   "    .tree-root ul::before \x7b",
   "      content: '';",
   "      position: absolute;",
   "      top: 0;",
   "      left: 1.25em;",
   "      height: 100%;",
   "      border-left: 2px solid #30363d;",
   "    \x7d",
   "    .tree-root li \x7b",
   "      position: relative;",
   "      margin: 0.8em 0;",
   "    \x7d",
   "    .tree-root li::before \x7b",
   "      content: '';",
   "      position: absolute;",
   "      top: 0.9em;",
   "      left: -1.25em;",
   "      width: 1.25em;",
   "      border-top: 2px solid #30363d;",
   "    \x7d",
   "    .node \x7b",
   "      display: inline-flex;",
   "      align-items: center;",
   "      padding: 0.5em 1em;",
   "      border: 1px solid #444c56;",
   "      border-radius: 6px;",
   "      background: #161b22;",
   "      color: #adbac7;",
   "    \x7d",
   "    .node.parent \x7b",
   "      cursor: pointer;",
   "    \x7d",
   "    .node.parent:hover \x7b",
   "      background: #21262d;",
   "    \x7d",
   "    .toggle \x7b",
   "      display: inline-block;",
   "      width: 1em;",
   "      margin-right: 0.5em;",
   "      border: 1px solid #444c56;",
   "      border-radius: 3px;",
   "      background: #21262d;",
   "      font-size: 0.8em;",
   "      line-height: 1em;",
   "      text-align: center;",
   "    \x7d",
   "    .node:not(.parent) .toggle \x7b",
   "      visibility: hidden;",
   "    \x7d",
   "    .label \x7b",
   "      white-space: nowrap;",
   "    \x7d",
   "    .hide-btn \x7b",
   "      margin-left: 0.5em;",
   "      padding: 0 0.4em;",
   "      border: none;",
   "      border-radius: 3px;",
   "      background: #f85149;",
   "      color: #ffffff;",
   "      cursor: pointer;",
   "      visibility: hidden;",
   "    \x7d",
   "    .node:hover .hide-btn \x7b",
   "      visibility: visible;",
   "    \x7d",
   "    .tree-root ul > li > .node \x7b",
   "      background: #1f242a;",
   "      border-color: #3e444c;",
   "    \x7d",
   "    .tree-root ul ul > li > .node \x7b",
   "      background: #292e35;",
   "      border-color: #494f58;",
   "    \x7d",
   "    .tree-root ul ul ul > li > .node \x7b",
   "      background: #323741;",
   "      border-color: #565c66;",
   "    \x7d",
   "  </style>",
   "</head>",
   "<body>",
   "  <div class=\"tree-container\">"]

def pageClosing : List String :=
  ["  </div>",
   "  <script>",
   "    var EXPANDED = '-';",
   "    var COLLAPSED = '+';",
   "",
   "    function setExpanded(node, list, expanded) \x7b",
   "      list.style.display = expanded ? '' : 'none';",
   "      var toggle = node.querySelector('.toggle');",
   "      if (toggle) toggle.textContent = expanded ? EXPANDED : COLLAPSED;",
   "    \x7d",
   "",
   "    document.querySelectorAll('.node.parent').forEach(function (node) \x7b",
   "      var list = node.nextElementSibling;",
   "      if (!list || list.tagName !== 'UL') return;",
   "      setExpanded(node, list, true);",
   "",
   "      node.addEventListener('click', function (event) \x7b",
   "        var expand = list.style.display === 'none';",
   "        setExpanded(node, list, expand);",
   "        if (!event.shiftKey) return;",
   "        list.querySelectorAll('.node.parent').forEach(function (inner) \x7b",
   "          var innerList = inner.nextElementSibling;",
   "          if (innerList && innerList.tagName === 'UL') setExpanded(inner, innerList, expand);",
   "        \x7d);",
   "      \x7d);",
   "    \x7d);",
   "",
   "    document.querySelectorAll('.hide-btn').forEach(function (button) \x7b",
   "      button.addEventListener('click', function (event) \x7b",
   "        event.stopPropagation();",
   "        var label = button.parentElement.querySelector('.label');",
   "        if (!label) return;",
   "        var name = label.textContent;",
   "        document.querySelectorAll('.label').forEach(function (other) \x7b",
   "          if (other.textContent !== name) return;",
   "          var item = other.closest('li');",
   "          if (item) item.style.display = 'none';",
   "        \x7d);",
   "      \x7d);",
   "    \x7d);",
   "  </script>",
   "</body>",
   "</html>"]

end ComponentTree.Tree
